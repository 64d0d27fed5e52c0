import Mathlib.Data.List.TakeDrop
import RtaiDemos.Soundmsg.Player

/-!
# Where the bytes of the file are

The bytes played, those in the buffer and those under way are the passes over the file
and the part of it that has been read. Every step of the two keeps it so, unless the
chunk in the buffer looks like the end request.
-/

namespace RtaiDemos.Soundmsg

variable {file : List UInt8}

/-! ### Chunks -/

/-- Some bytes of the file that were read at once. -/
def Chunk (file data : List UInt8) : Prop :=
  ∃ pos, pos % BUFSIZE = 0 ∧ data = chunk file pos ∧ data ≠ []

theorem chunk_length_le (file : List UInt8) (pos : Nat) : (chunk file pos).length ≤ BUFSIZE :=
  List.length_take_le _ _

theorem Chunk.length_le {data : List UInt8} (h : Chunk file data) : data.length ≤ BUFSIZE := by
  obtain ⟨pos, _, rfl, _⟩ := h
  exact chunk_length_le file pos

theorem chunk_length (file : List UInt8) (pos : Nat) :
    (chunk file pos).length = min BUFSIZE (file.length - pos) := by
  unfold chunk
  rw [List.length_take, List.length_drop]

/-- What is read comes after what has been read. -/
theorem take_append_chunk (file : List UInt8) (pos : Nat) :
    file.take pos ++ chunk file pos = file.take (pos + (chunk file pos).length) := by
  have hchunk : chunk file pos = (file.drop pos).take (chunk file pos).length := by
    rw [chunk_length, chunk, List.take_eq_take_min, List.length_drop]
  conv_lhs => rw [hchunk]
  rw [List.take_add]

/-- Only the end of the file can be taken for the end request. -/
theorem Chunk.endsInRequest {data : List UInt8} (h : Chunk file data) (heq : data = endRequest) :
    EndsInRequest file := by
  obtain ⟨pos, hpos, rfl, _⟩ := h
  have hlen : (chunk file pos).length = 4 := by
    rw [heq]
    rfl
  rw [chunk_length] at hlen
  unfold BUFSIZE at hlen hpos
  have hfile : file.length = pos + 4 := by omega
  refine ⟨?_, ?_⟩
  · unfold BUFSIZE
    omega
  · have hall : chunk file pos = file.drop pos :=
      List.take_of_length_le (by rw [List.length_drop]; unfold BUFSIZE; omega)
    rw [hfile, Nat.add_sub_cancel, ← hall]
    exact heq

theorem overlay_length {buf data : List UInt8} (hbuf : buf.length = BUFSIZE)
    (hdata : data.length ≤ BUFSIZE) : (overlay buf data).length = BUFSIZE := by
  unfold overlay
  rw [List.length_append, List.length_take, List.length_drop]
  omega

theorem overlay_take {buf data : List UInt8} (hdata : data.length ≤ BUFSIZE) :
    (overlay buf data).take data.length = data := by
  unfold overlay
  rw [List.take_of_length_le hdata, List.take_left']
  rfl

/-! ### The ledger -/

/-- The bytes in the buffer that are still to be played. -/
def unplayed (speaker : SpeakerPc) (buf : List UInt8) (i len : Nat) : List UInt8 :=
  match speaker with
  | .test | .play | .period => (buf.drop i).take len
  | .reply | .check => buf.take len
  | _ => []

/-- The bytes that have been read and not been received. -/
def underWay (main : MainPc) (request : Option (List UInt8)) : List UInt8 :=
  match main with
  | .rpc data => data
  | .rpcWait => request.getD []
  | _ => []

/-- Every byte read has been played, is in the buffer or is under way. -/
def State.Ledger (file : List UInt8) (σ : State) : Prop :=
  ∃ passes, σ.played ++ unplayed σ.speaker σ.buf σ.i σ.len ++ underWay σ.main σ.request =
    (List.replicate passes file).flatten ++ file.take σ.pos

/-- `main` is not in a pass over the file. -/
def MainPc.betweenPasses : MainPc → Bool
  | .receive | .outer | .lseek => true
  | _ => false

/-- The speaker looks for a message. -/
def SpeakerPc.looks : SpeakerPc → Bool
  | .evdrp | .receive => true
  | _ => false

/-- The speaker has a message that it has not accepted. -/
def SpeakerPc.answers : SpeakerPc → Bool
  | .reply | .check => true
  | _ => false

/-- The speaker plays what is in the buffer. -/
def SpeakerPc.plays : SpeakerPc → Bool
  | .test | .play | .period => true
  | _ => false

/-- The place of `main` and its offset, while there is no SIGINT. -/
structure Position (file : List UInt8) (main : MainPc) (pos : Nat) : Prop where
  multiple : pos % BUFSIZE = 0 ∨ file.length ≤ pos
  outside : main.betweenPasses = true → pos = 0 ∨ file.length ≤ pos
  data : ∀ data, main = .rpc data → Chunk file data
  running : main ≠ .final ∧ main ≠ .finalWait

/-- A request is a chunk that `main` waits for, and it is returned once. -/
structure Channel (file : List UInt8) (main : MainPc) (request : Option (List UInt8))
    (returned : Option Nat) (speaker : SpeakerPc) : Prop where
  sent : ∀ data, request = some data → main = .rpcWait ∧ Chunk file data
  replying : speaker = .reply → main = .rpcWait ∧ request = none ∧ returned = none
  answered : ∀ len, returned = some len → main = .rpcWait ∧ request = none

/-- The buffer of the speaker. -/
structure Buffer (file : List UInt8) (speaker : SpeakerPc) (buf : List UInt8) (i len : Nat) :
    Prop where
  length : buf.length = BUFSIZE
  idle : speaker.looks = true → len = 0
  message : speaker.answers = true → len ≤ BUFSIZE ∧ Chunk file (buf.take len)
  place : speaker.plays = true → len = 0 ∨ i + len ≤ BUFSIZE
  play : speaker = .play → len ≠ 0
  listening : speaker ≠ .left

/-- While there is no SIGINT. -/
structure Inv (file : List UInt8) (σ : State) : Prop where
  ledger : σ.Ledger file
  position : Position file σ.main σ.pos
  channel : Channel file σ.main σ.request σ.returned σ.speaker
  buffer : Buffer file σ.speaker σ.buf σ.i σ.len

theorem initState_inv {buf : List UInt8} (hbuf : buf.length = BUFSIZE) (i : Nat) :
    Inv file (initState buf i) := by
  exact ⟨⟨0, rfl⟩, ⟨.inl rfl, fun _ => .inl rfl, nofun, nofun, nofun⟩, ⟨nofun, nofun, nofun⟩,
    ⟨hbuf, nofun, nofun, nofun, nofun, nofun⟩⟩

/-! ### The steps of `main` -/

section Steps

variable {σ σ' : State}

/-- A place of `main` without bytes under way, while nothing is sent. -/
theorem Channel.idle {main : MainPc} {request : Option (List UInt8)} {returned : Option Nat}
    {speaker : SpeakerPc} (h : Channel file main request returned speaker) (hne : main ≠ .rpcWait) :
    request = none ∧ returned = none ∧ speaker ≠ .reply := by
  refine ⟨?_, ?_, ?_⟩
  · rw [Option.eq_none_iff_forall_ne_some]
    exact fun data hdata => hne (h.sent data hdata).1
  · rw [Option.eq_none_iff_forall_ne_some]
    exact fun len hlen => hne (h.answered len hlen).1
  · exact fun hreply => hne (h.replying hreply).1

/-- The places of `main` in a pass, where it has no bytes. -/
theorem Position.inPass {main : MainPc} {pos : Nat} (h : pos % BUFSIZE = 0 ∨ file.length ≤ pos)
    (hmain : main = .inner ∨ main = .read ∨ main = .rpcWait) : Position file main pos := by
  rcases hmain with rfl | rfl | rfl
  · exact ⟨h, nofun, nofun, nofun, nofun⟩
  · exact ⟨h, nofun, nofun, nofun, nofun⟩
  · exact ⟨h, nofun, nofun, nofun, nofun⟩

/-- With nothing sent, `main` may be anywhere. -/
theorem channel_none {speaker : SpeakerPc} (main : MainPc) (hreply : speaker ≠ .reply) :
    Channel file main none none speaker :=
  ⟨nofun, fun h => absurd h hreply, nofun⟩

/-- `main` goes on to a place where it has no bytes. -/
theorem Inv.mainTo (h : Inv file σ) {main : MainPc} {pos : Nat} (hne : σ.main ≠ .rpcWait)
    (hbytes : underWay σ.main σ.request = []) (hbytes' : underWay main σ.request = [])
    (hposition : Position file main pos)
    (htake : ∃ passes, ∀ n, (List.replicate n file).flatten ++ file.take σ.pos =
      (List.replicate (n + passes) file).flatten ++ file.take pos) :
    Inv file { σ with main := main, pos := pos } := by
  obtain ⟨n, hledger⟩ := h.ledger
  obtain ⟨passes, htake⟩ := htake
  refine ⟨⟨n + passes, ?_⟩, hposition, ?_, h.buffer⟩
  · show σ.played ++ _ ++ underWay main σ.request = _
    rw [hbytes', ← hbytes, hledger, htake]
  · obtain ⟨hrequest, hreturned, hreply⟩ := h.channel.idle hne
    show Channel file main σ.request σ.returned σ.speaker
    rw [hrequest, hreturned]
    exact channel_none main hreply

theorem flatten_replicate_succ (n : Nat) (file : List UInt8) :
    (List.replicate n file).flatten ++ file = (List.replicate (n + 1) file).flatten := by
  rw [List.replicate_succ', List.flatten_append, List.flatten_singleton]

/-- `read` takes the next chunk of the file. -/
theorem Inv.readChunk (h : Inv file σ) (hpc : σ.main = .read)
    (hpos : (chunk file σ.pos).length > 0) :
    Inv file { σ with
      pos := σ.pos + (chunk file σ.pos).length, main := .rpc (chunk file σ.pos) } := by
  have hlen := chunk_length file σ.pos
  have hmultiple : σ.pos % BUFSIZE = 0 := by
    rcases h.position.multiple with hm | hend
    · exact hm
    · omega
  obtain ⟨n, hledger⟩ := h.ledger
  obtain ⟨hrequest, hreturned, hreply⟩ := h.channel.idle (by rw [hpc]; nofun)
  refine ⟨⟨n, ?_⟩, ⟨?_, nofun, ?_, nofun, nofun⟩, ?_, h.buffer⟩
  · show σ.played ++ unplayed σ.speaker σ.buf σ.i σ.len ++ chunk file σ.pos = _
    rw [hpc] at hledger
    show _ = (List.replicate n file).flatten ++ file.take (σ.pos + (chunk file σ.pos).length)
    rw [← take_append_chunk, ← List.append_assoc, ← hledger]
    show _ = σ.played ++ unplayed σ.speaker σ.buf σ.i σ.len ++ [] ++ chunk file σ.pos
    rw [List.append_nil]
  · show (σ.pos + (chunk file σ.pos).length) % BUFSIZE = 0 ∨
      file.length ≤ σ.pos + (chunk file σ.pos).length
    unfold BUFSIZE at hlen hmultiple ⊢
    omega
  · intro data hdata
    cases hdata
    exact ⟨σ.pos, hmultiple, rfl, List.ne_nil_of_length_pos hpos⟩
  · show Channel file _ σ.request σ.returned σ.speaker
    rw [hrequest, hreturned]
    exact channel_none _ hreply

/-- `rt_rpcx` leaves it with the speaker. -/
theorem Inv.sentChunk (h : Inv file σ) {data : List UInt8} (hpc : σ.main = .rpc data) :
    Inv file { σ with request := some data, main := .rpcWait } := by
  obtain ⟨n, hledger⟩ := h.ledger
  obtain ⟨hrequest, hreturned, hreply⟩ := h.channel.idle (by rw [hpc]; nofun)
  refine ⟨⟨n, ?_⟩, .inPass h.position.multiple (.inr (.inr rfl)), ⟨?_, ?_, ?_⟩, h.buffer⟩
  · rw [hpc] at hledger
    exact hledger
  · intro data' hdata'
    cases hdata'
    exact ⟨rfl, h.position.data data hpc⟩
  · exact fun hr => absurd hr hreply
  · intro len hlen
    rw [hreturned] at hlen
    cases hlen

/-- `rt_rpcx` comes back when the speaker has it. -/
theorem Inv.answeredChunk (h : Inv file σ) (hpc : σ.main = .rpcWait) {len : Nat}
    (hlen : σ.returned = some len) : Inv file { σ with returned := none, main := .inner } := by
  obtain ⟨_, hrequest⟩ := h.channel.answered len hlen
  have hreply : σ.speaker ≠ .reply := by
    intro hr
    obtain ⟨_, _, hnone⟩ := h.channel.replying hr
    rw [hnone] at hlen
    cases hlen
  obtain ⟨n, hledger⟩ := h.ledger
  refine ⟨⟨n, ?_⟩, .inPass h.position.multiple (.inl rfl), ?_, h.buffer⟩
  · rw [hpc, hrequest] at hledger
    exact hledger
  · show Channel file .inner σ.request none σ.speaker
    rw [hrequest]
    exact channel_none _ hreply

/-- A step of `main`. -/
theorem Inv.mainStep (h : Inv file σ) (hrun : σ.ended = false)
    (hstep : σ.mainStep file = some σ') : Inv file σ' := by
  have hsame : ∃ passes, ∀ n, (List.replicate n file).flatten ++ file.take σ.pos =
      (List.replicate (n + passes) file).flatten ++ file.take σ.pos := ⟨0, fun _ => rfl⟩
  have hposition := h.position
  unfold State.mainStep at hstep
  split at hstep
  · -- `rt_receivex`
    rename_i hpc
    split at hstep
    · cases hstep
      have hto : Inv file { σ with main := .outer } :=
        h.mainTo (by rw [hpc]; nofun) (by rw [hpc]; rfl) rfl
          ⟨hposition.multiple, fun _ => hposition.outside (by rw [hpc]; rfl), nofun, nofun, nofun⟩
          hsame
      exact ⟨hto.ledger, hto.position, hto.channel, hto.buffer⟩
    · cases hstep
  · rename_i hpc
    have hgoes : (if σ.ended then MainPc.final else .lseek) = .lseek := by rw [hrun]; rfl
    rw [hgoes] at hstep
    cases hstep
    exact h.mainTo (by rw [hpc]; nofun) (by rw [hpc]; rfl) rfl
      ⟨hposition.multiple, fun _ => hposition.outside (by rw [hpc]; rfl), nofun, nofun, nofun⟩ hsame
  · -- `lseek`: a pass is over, unless this is the first
    rename_i hpc
    cases hstep
    refine h.mainTo (by rw [hpc]; nofun) (by rw [hpc]; rfl) rfl (.inPass (.inl rfl) (.inl rfl)) ?_
    rcases hposition.outside (by rw [hpc]; rfl) with hzero | hend
    · refine ⟨0, fun n => ?_⟩
      rw [hzero]
      rfl
    · refine ⟨1, fun n => ?_⟩
      rw [List.take_of_length_le hend, List.take_zero, List.append_nil, flatten_replicate_succ]
  · rename_i hpc
    have hgoes : (if σ.ended then MainPc.outer else .read) = .read := by rw [hrun]; rfl
    rw [hgoes] at hstep
    cases hstep
    exact h.mainTo (by rw [hpc]; nofun) (by rw [hpc]; rfl) rfl
      (.inPass hposition.multiple (.inr (.inl rfl))) hsame
  · -- `read`
    rename_i hpc
    cases hstep
    have hlen := chunk_length file σ.pos
    by_cases hpos : (chunk file σ.pos).length > 0
    · simp only [if_pos hpos]
      exact h.readChunk hpc hpos
    · have hzero : (chunk file σ.pos).length = 0 := by omega
      have hend : file.length ≤ σ.pos := by
        unfold BUFSIZE at hlen
        omega
      rw [if_neg hpos, hzero, Nat.add_zero]
      exact h.mainTo (by rw [hpc]; nofun) (by rw [hpc]; rfl) rfl
        ⟨.inr hend, fun _ => .inr hend, nofun, nofun, nofun⟩ hsame
  · -- `rt_rpcx`
    rename_i data hpc
    cases hstep
    exact h.sentChunk hpc
  · -- back from it
    rename_i hpc
    obtain ⟨len, hlen, rfl⟩ := Option.map_eq_some_iff.mp hstep
    exact h.answeredChunk hpc hlen
  · rename_i hpc
    exact absurd hpc hposition.running.1
  · rename_i hpc
    exact absurd hpc hposition.running.2
  · cases hstep

/-! ### The steps of the speaker -/

/-- The speaker goes on, and the bytes it has are where they were. -/
theorem Inv.speakerTo (h : Inv file σ) (hello : Bool) (speaker : SpeakerPc) (buf : List UInt8)
    (i len : Nat) (hreply : speaker ≠ .reply)
    (hbytes : unplayed speaker buf i len = unplayed σ.speaker σ.buf σ.i σ.len)
    (hbuffer : Buffer file speaker buf i len) :
    Inv file { σ with hello := hello, speaker := speaker, buf := buf, i := i, len := len } := by
  obtain ⟨n, hledger⟩ := h.ledger
  refine ⟨⟨n, ?_⟩, h.position, ⟨h.channel.sent, fun hr => absurd hr hreply, h.channel.answered⟩,
    hbuffer⟩
  show σ.played ++ unplayed speaker buf i len ++ _ = _
  rw [hbytes]
  exact hledger

/-- `rt_receivex_if` moves a chunk to the buffer. -/
theorem Inv.received (h : Inv file σ) (hpc : σ.speaker = .receive) {data : List UInt8}
    (hdata : σ.request = some data) :
    Inv file { σ with
      buf := overlay σ.buf data, len := data.length, request := none, speaker := .reply } := by
  obtain ⟨hmain, hchunk⟩ := h.channel.sent data hdata
  have hlen := hchunk.length_le
  have hreturned : σ.returned = none := by
    rw [Option.eq_none_iff_forall_ne_some]
    intro len hanswer
    have hnone := (h.channel.answered len hanswer).2
    rw [hdata] at hnone
    cases hnone
  obtain ⟨n, hledger⟩ := h.ledger
  refine ⟨⟨n, ?_⟩, h.position, ⟨nofun, fun _ => ⟨hmain, rfl, hreturned⟩, ?_⟩, ?_⟩
  · rw [hpc, hmain, hdata] at hledger
    show σ.played ++ (overlay σ.buf data).take data.length ++ underWay σ.main none = _
    rw [overlay_take hlen, hmain, ← hledger]
    show σ.played ++ data ++ [] = σ.played ++ [] ++ data
    rw [List.append_nil, List.append_nil]
  · intro len hanswer
    exact ⟨hmain, rfl⟩
  · refine ⟨overlay_length h.buffer.length hlen, nofun, fun _ => ⟨hlen, ?_⟩, nofun, nofun, nofun⟩
    rw [overlay_take hlen]
    exact hchunk

/-- `rt_returnx` answers with the length. -/
theorem Inv.replied (h : Inv file σ) (hpc : σ.speaker = .reply) :
    Inv file { σ with returned := some σ.len, speaker := .check } := by
  obtain ⟨hmain, hrequest, _⟩ := h.channel.replying hpc
  obtain ⟨n, hledger⟩ := h.ledger
  refine ⟨⟨n, ?_⟩, h.position, ⟨h.channel.sent, nofun, fun _ _ => ⟨hmain, hrequest⟩⟩,
    h.buffer.length, nofun, fun _ => h.buffer.message (by rw [hpc]; rfl), nofun, nofun, nofun⟩
  rw [hpc] at hledger
  exact hledger

/-- `filter` gets the next byte. -/
theorem Inv.playedByte (h : Inv file σ) (hpc : σ.speaker = .play) {x : UInt8}
    (hx : σ.buf[σ.i]? = some x) :
    Inv file { σ with
      played := σ.played ++ [x], i := σ.i + 1, len := σ.len - 1, speaker := .period } := by
  obtain ⟨n, hledger⟩ := h.ledger
  have hlen := h.buffer.play hpc
  have hbytes : (σ.buf.drop σ.i).take σ.len = x :: (σ.buf.drop (σ.i + 1)).take (σ.len - 1) := by
    obtain ⟨hlt, rfl⟩ := List.getElem?_eq_some_iff.mp hx
    obtain ⟨m, hm⟩ := Nat.exists_eq_succ_of_ne_zero hlen
    rw [List.drop_eq_getElem_cons hlt, hm, List.take_succ_cons, Nat.succ_sub_one]
  refine ⟨⟨n, ?_⟩, h.position, ⟨h.channel.sent, nofun, h.channel.answered⟩, h.buffer.length, nofun,
    nofun, fun _ => ?_, nofun, nofun⟩
  · rw [hpc] at hledger
    show σ.played ++ [x] ++ (σ.buf.drop (σ.i + 1)).take (σ.len - 1) ++ _ = _
    rw [← hledger]
    show _ = σ.played ++ (σ.buf.drop σ.i).take σ.len ++ _
    rw [hbytes, List.append_assoc σ.played, List.singleton_append]
  · show σ.len - 1 = 0 ∨ σ.i + 1 + (σ.len - 1) ≤ BUFSIZE
    rcases h.buffer.place (by rw [hpc]; rfl) with hzero | hplace
    · exact absurd hzero hlen
    · omega

/-- A step of the speaker, if no chunk looks like the end request. -/
theorem Inv.speakerStep (h : Inv file σ) (hrun : σ.ended = false) (hend : ¬ EndsInRequest file)
    (hstep : σ.speakerStep = some σ') : Inv file σ' := by
  have hbuffer := h.buffer
  unfold State.speakerStep at hstep
  split at hstep
  · rename_i hpc
    cases hstep
    exact h.speakerTo true .sent σ.buf σ.i σ.len nofun (by rw [hpc]; rfl)
      ⟨hbuffer.length, nofun, nofun, nofun, nofun, nofun⟩
  · rename_i hpc
    split at hstep
    · cases hstep
    · cases hstep
      refine h.speakerTo σ.hello .test σ.buf σ.i 0 nofun ?_
        ⟨hbuffer.length, nofun, nofun, fun _ => .inl rfl, nofun, nofun⟩
      rw [hpc]
      rfl
  · rename_i hpc
    by_cases hlen : σ.len = 0
    · have hgoes : (if σ.ended then SpeakerPc.left else if σ.len ≠ 0 then .play else .evdrp) =
          .evdrp := by
        rw [hrun, if_neg Bool.false_ne_true, if_neg (not_not_intro hlen)]
      rw [hgoes] at hstep
      cases hstep
      refine h.speakerTo σ.hello .evdrp σ.buf σ.i σ.len nofun ?_
        ⟨hbuffer.length, fun _ => hlen, nofun, nofun, nofun, nofun⟩
      rw [hpc, hlen]
      rfl
    · have hgoes : (if σ.ended then SpeakerPc.left else if σ.len ≠ 0 then .play else .evdrp) =
          .play := by
        rw [hrun, if_neg Bool.false_ne_true, if_pos hlen]
      rw [hgoes] at hstep
      cases hstep
      refine h.speakerTo σ.hello .play σ.buf σ.i σ.len nofun (by rw [hpc]; rfl)
        ⟨hbuffer.length, nofun, nofun, fun _ => ?_, fun _ => hlen, nofun⟩
      exact hbuffer.place (by rw [hpc]; rfl)
  · rename_i hpc
    obtain ⟨x, hx, rfl⟩ := Option.map_eq_some_iff.mp hstep
    exact h.playedByte hpc hx
  · -- what `rt_evdrpx` leaves in the buffer is not played
    rename_i hpc
    have hidle := hbuffer.idle (by rw [hpc]; rfl)
    split at hstep
    · rename_i data hdata
      cases hstep
      have hdata' := (h.channel.sent data hdata).2.length_le
      exact h.speakerTo σ.hello .receive (overlay σ.buf data) data.length σ.len nofun
        (by rw [hpc]; rfl)
        ⟨overlay_length hbuffer.length hdata', fun _ => hidle, nofun, nofun, nofun, nofun⟩
    · cases hstep
      exact h.speakerTo σ.hello .receive σ.buf σ.i σ.len nofun (by rw [hpc]; rfl)
        ⟨hbuffer.length, fun _ => hidle, nofun, nofun, nofun, nofun⟩
  · rename_i hpc
    split at hstep
    · rename_i data hdata
      cases hstep
      exact h.received hpc hdata
    · cases hstep
      have hidle := hbuffer.idle (by rw [hpc]; rfl)
      refine h.speakerTo σ.hello .period σ.buf σ.i σ.len nofun ?_
        ⟨hbuffer.length, nofun, nofun, fun _ => .inl hidle, nofun, nofun⟩
      rw [hpc, hidle]
      rfl
  · rename_i hpc
    cases hstep
    exact h.replied hpc
  · -- the test for the end request
    rename_i hpc
    obtain ⟨hlen, hchunk⟩ := hbuffer.message (by rw [hpc]; rfl)
    split at hstep
    · rename_i hask
      obtain ⟨h4, hbytes⟩ := hask
      rw [h4] at hchunk
      exact absurd (hchunk.endsInRequest hbytes) hend
    · cases hstep
      refine h.speakerTo σ.hello .period σ.buf 0 σ.len nofun ?_
        ⟨hbuffer.length, nofun, nofun, fun _ => .inr ?_, nofun, nofun⟩
      · rw [hpc]
        rfl
      · rw [Nat.zero_add]
        exact hlen
  · rename_i hpc
    cases hstep
    exact h.speakerTo σ.hello .test σ.buf σ.i σ.len nofun (by rw [hpc]; rfl)
      ⟨hbuffer.length, nofun, nofun, fun _ => hbuffer.place (by rw [hpc]; rfl), nofun, nofun⟩
  · cases hstep

end Steps

end RtaiDemos.Soundmsg
