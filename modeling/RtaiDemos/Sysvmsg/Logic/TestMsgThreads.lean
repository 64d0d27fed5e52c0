import Mathlib.Data.List.Count
import RtaiDemos.Sysvmsg.Logic.TestMsg

/-!
# The threads of the test program, one by one

What holds of a client and of the server wherever they stand, and the two
inequalities that tie a client's requests, the server's replies to it and the
replies it has accepted. A request or a reply is a token: it is in a call that
has not yet had its effect, in a queue, or in the hands of the one that took it.
-/

namespace RtaiDemos.Sysvmsg.TestMsg

/-- Where a thread is in the atomic system: outside, or in a call and perhaps after its
operation. -/
abbrev Place := Option (Call × Option BoxOp)

/-- The thread is in a call that has not had its effect. -/
def pending : Place → Bool
  | some (_, none) => true
  | _ => false

/-- The message that the call of the thread has taken. -/
def taken : Place → Option Msg
  | some (_, some (.recv _ _ _ m)) => some m
  | _ => none

/-- A thread stands in the call that its program counter says, or outside. -/
structure Stands (P : Params) (call : Option Call) (inside : Bool) (a : Place) : Prop where
  out : inside = false → a = none
  within : inside = true → ∃ c o, call = some c ∧ a = some (c, o)
  does : ∀ c o, a = some (c, some o) → Call.does P c o

/-- A queue that was found by its key is one of the program's. -/
def Found (N : Names) (ids : List Int) (a : Place) : Prop :=
  ∀ c id key, a = some (c, some (.find id key)) → ∃ j, ids[j]? = some (id : Int) ∧ key = N.key j

variable {N : Names} {P : Params} {ids : List Int} {e : Int} {t : Nat} {x : Mfun} {y : Bfun}
  {a b : Place} {c : Call} {o : Option BoxOp} {r : Ret}

theorem Stands.outside {call : Option Call} {inside : Bool} (hin : inside = false) :
    Stands P call inside none := by
  refine ⟨fun _ => rfl, ?_, ?_⟩
  · intro hi
    rw [hin] at hi
    cases hi
  · intro c o ha
    cases ha

theorem Stands.invoked {call : Option Call} {inside : Bool} (hin : inside = true)
    (hc : call = some c) : Stands P call inside (some (c, none)) := by
  refine ⟨?_, fun _ => ⟨c, none, hc, rfl⟩, ?_⟩
  · intro hi
    rw [hin] at hi
    cases hi
  · intro c o ha
    cases ha

theorem Found.outside : Found N ids none := by
  intro c id key ha
  cases ha

theorem Found.invoked : Found N ids (some (c, none)) := by
  intro c id key ha
  cases ha

/-! ## A client -/

/-- A client whose request is out and not answered. -/
def Mfun.owes (x : Mfun) : Nat :=
  match x.pc with
  | .send => if x.inside then 1 else 0
  | .recv => 1
  | _ => 0

/-- What holds of `mfun(t)`. -/
structure ClientOk (N : Names) (P : Params) (ids : List Int) (e : Int) (t : Nat) (x : Mfun)
    (a : Place) : Prop where
  stands : Stands P (x.call N t) x.inside a
  smbx : 0 ≤ x.smbx → ids[0]? = some x.smbx
  rmbx : 0 ≤ x.rmbx → ids[t + 1]? = some x.rmbx
  found : Found N ids a
  got : ∀ m, taken a = some m → Kind e (t + 1) m
  length : x.pc ≠ .done → x.msg.length = MAXSIZ + 1
  first : x.pc ∈ [.getSmbx, .getRmbx, .barrier, .loop] → x.msg[0]? = some (.ofNat 32 t)
  sending : x.pc = .send → ∃ draws, draws.length = MAXSIZ - 1 ∧ x.msg = request t draws
  requests : x.pc ≠ .done → x.requests = x.cnt + x.owes
  last : x.requests ≤ x.cnt + 1
  wrong : x.wrong = true → (t : Int) ≤ e
  done : x.pc = .done → x.failed = true ∨ (t : Int) ≤ e

/-- What holds of `bfun`. -/
structure ServerOk (N : Names) (P : Params) (ids : List Int) (e : Int) (y : Bfun) (b : Place) :
    Prop where
  stands : Stands P (y.call N) y.inside b
  smbx : 0 ≤ y.smbx → ids[0]? = some y.smbx
  rmbx : ∀ (i : Nat) (id : Int), y.rmbx[i]? = some id → 0 ≤ id → ids[i + 1]? = some id
  found : Found N ids b
  got : ∀ m, taken b = some m → Kind e 0 m
  asking : y.pc ∈ [.unborn, .getSmbx, .getRmbx] → y.rmbx.length < NTASKS
  asked : y.pc ∉ [.unborn, .getSmbx, .getRmbx] → y.rmbx.length = NTASKS
  reply : y.pc = .reply → (∃ t w rest, t < NTASKS ∧ y.msg = .ofNat 32 t :: w :: rest) ∨
    (NTASKS : Int) ≤ e
  sending : ∀ rmbx, y.pc = .send rmbx → ∃ t rest, t < NTASKS ∧ y.rmbx[t]? = some rmbx ∧
    y.msg = .ofNat 32 t :: 0xFFFFFFFF#32 :: rest
  unknown : y.unknown = true → (NTASKS : Int) ≤ e
  inBounds : y.oob = false

/-! ## Tokens -/

/-- The server has a request of client `t` in hand. -/
def inHand (t : Nat) (y : Bfun) (b : Place) : Bool :=
  match y.pc with
  | .recv => (taken b).any (ofTask t)
  | .reply => y.msg[0]? == some (.ofNat 32 t)
  | .send _ => b.isNone && y.msg[0]? == some (.ofNat 32 t)
  | _ => false

/-- The server is sending a reply to client `t`. -/
def answering (t : Nat) (y : Bfun) (b : Place) : Bool :=
  match y.pc with
  | .send _ => pending b && y.msg[0]? == some (.ofNat 32 t)
  | _ => false

/-- The client is sending a request. -/
def Mfun.asking (x : Mfun) (a : Place) : Bool := decide (x.pc = .send) && pending a

/-- The client has taken a reply. -/
def Mfun.answered (t : Nat) (x : Mfun) (a : Place) : Bool :=
  decide (x.pc = .recv) && (taken a).any (ofTask t)

/-- Requests of `t` are answered once, and replies to it accepted once. `asked` are the
messages in SMSG and `replied` those in its own queue. -/
structure Tokens (t : Nat) (x : Mfun) (a : Place) (y : Bfun) (b : Place)
    (asked replied : List Msg) : Prop where
  requests : (x.asking a).toNat + asked.countP (ofTask t) + (inHand t y b).toNat + y.replies t ≤
    x.requests
  replies : x.cnt + (answering t y b).toNat + replied.countP (ofTask t) +
    (x.answered t a).toNat ≤ y.replies t

/-! ## Steps of a client -/

/-- More queues, a later value of `end`. -/
theorem ClientOk.mono (h : ClientOk N P ids e t x a) {new : List Int} {e' : Int} (he : e ≤ e') :
    ClientOk N P (ids ++ new) e' t x a := by
  have hget : ∀ {j : Nat} {id : Int}, ids[j]? = some id → (ids ++ new)[j]? = some id := by
    intro j id hj
    rw [List.getElem?_append_left]
    · exact hj
    · exact (List.getElem?_eq_some_iff.mp hj).1
  refine
    { h with
      smbx := fun hpos => hget (h.smbx hpos)
      rmbx := fun hpos => hget (h.rmbx hpos)
      found := ?_
      got := fun m hm => (h.got m hm).mono he
      wrong := fun hw => (h.wrong hw).trans he
      done := fun hd => (h.done hd).imp_right fun hle => hle.trans he }
  intro c id key ha
  obtain ⟨j, hj, hkey⟩ := h.found c id key ha
  exact ⟨j, hget hj, hkey⟩

theorem ServerOk.mono (h : ServerOk N P ids e y b) {new : List Int} {e' : Int} (he : e ≤ e') :
    ServerOk N P (ids ++ new) e' y b := by
  have hget : ∀ {j : Nat} {id : Int}, ids[j]? = some id → (ids ++ new)[j]? = some id := by
    intro j id hj
    rw [List.getElem?_append_left]
    · exact hj
    · exact (List.getElem?_eq_some_iff.mp hj).1
  refine
    { h with
      smbx := fun hpos => hget (h.smbx hpos)
      rmbx := fun i id hi hpos => hget (h.rmbx i id hi hpos)
      found := ?_
      got := fun m hm => (h.got m hm).mono he
      reply := fun hr => (h.reply hr).imp_right fun hle => hle.trans he
      unknown := fun hu => (h.unknown hu).trans he }
  intro c id key ha
  obtain ⟨j, hj, hkey⟩ := h.found c id key ha
  exact ⟨j, hget hj, hkey⟩

/-- The client invokes its call. -/
theorem ClientOk.enter (h : ClientOk N P ids e t x a) (hin : x.inside = false)
    (hc : x.call N t = some c) : ClientOk N P ids e t x.enter (some (c, none)) := by
  have hreq := h.requests
  obtain ⟨pc, inside, smbx, rmbx, msg, cnt, wrong, failed, requests⟩ := x
  cases hin
  refine
    { smbx := h.smbx
      rmbx := h.rmbx
      found := .invoked
      got := nofun
      length := h.length
      first := h.first
      sending := h.sending
      wrong := h.wrong
      done := h.done
      stands := .invoked rfl hc
      requests := ?_
      last := ?_ }
  · intro hd
    have := hreq hd
    cases pc <;> simp_all [Mfun.enter, Mfun.owes]
  · have := h.last
    cases pc <;> simp_all [Mfun.enter, Mfun.owes]

theorem Tokens.enter {asked replied : List Msg} (h : Tokens t x none y b asked replied)
    (hc : x.call N t = some c) : Tokens t x.enter (some (c, none)) y b asked replied := by
  obtain ⟨hreq, hrep⟩ := h
  obtain ⟨pc, inside, smbx, rmbx, msg, cnt, wrong, failed, requests⟩ := x
  refine ⟨?_, ?_⟩
  · cases pc <;> simp_all [Mfun.enter, Mfun.asking, pending]
    omega
  · cases pc <;> simp_all [Mfun.enter, Mfun.answered, taken]

/-- What `rt_msgget` may come to without IPC_CREAT. -/
theorem does_msgget {j : Nat} (hj : j ≤ NTASKS) {op : BoxOp}
    (hd : Call.does P (.msgget (N.key j) 0#32) op) :
    (∃ id, op = .find id (N.key j)) ∨ ∃ what, op = .meet what := by
  cases op with
  | create id key => exact absurd hd.2 (not_or.mpr ⟨N.ne_private j hj, by decide⟩)
  | find id key =>
      rw [hd.1]
      exact .inl ⟨id, rfl⟩
  | meet what => exact .inr ⟨what, rfl⟩
  | _ => exact hd.elim

/-- What the call of a client may come to. -/
inductive ClientOp (N : Names) (t : Nat) (x : Mfun) : BoxOp → Prop
  | find {id j} (hpc : x.pc = .getSmbx ∧ j = 0 ∨ x.pc = .getRmbx ∧ j = t + 1) :
      ClientOp N t x (.find id (N.key j))
  | send {id : Nat} {m} (hpc : x.pc = .send) (hid : (id : Int) = x.smbx)
      (hsize : m.m_ts = m.m_text.length) (htext : m.m_text = bytesOf x.msg) :
      ClientOp N t x (.send id m)
  | recv {id : Nat} {mode type m} (hpc : x.pc = .recv) (hid : (id : Int) = x.rmbx) :
      ClientOp N t x (.recv id mode type m)
  | meet {what} : ClientOp N t x (.meet what)

theorem ClientOp.of_does (ht : t < NTASKS) (hc : x.call N t = some c) {op : BoxOp}
    (hd : Call.does P c op) : ClientOp N t x op := by
  unfold Mfun.call at hc
  split at hc
  · rename_i hpc
    cases hc
    obtain ⟨id, rfl⟩ | ⟨what, rfl⟩ := does_msgget (Nat.zero_le _) hd
    · exact .find (.inl ⟨hpc, rfl⟩)
    · exact .meet
  · rename_i hpc
    cases hc
    obtain ⟨id, rfl⟩ | ⟨what, rfl⟩ := does_msgget ht hd
    · exact .find (.inr ⟨hpc, rfl⟩)
    · exact .meet
  · rename_i hpc
    cases hc
    cases op with
    | send id m =>
        obtain ⟨hid, -, -, hsize, htext⟩ := hd
        rw [← htext] at hsize
        exact .send hpc hid hsize htext
    | meet what => exact .meet
    | _ => exact hd.elim
  · rename_i hpc
    cases hc
    cases op with
    | recv id mode type m => exact .recv hpc hd.1
    | meet what => exact .meet
    | _ => exact hd.elim
  · cases hc

/-- The call of the client has its effect. -/
theorem ClientOk.op (h : ClientOk N P ids e t x (some (c, none))) {op : BoxOp}
    (hd : Call.does P c op)
    (hfound : ∀ id key, op = .find id key → ∃ j, ids[j]? = some (id : Int) ∧ key = N.key j)
    (hgot : ∀ id mode type m, op = .recv id mode type m → Kind e (t + 1) m) :
    ClientOk N P ids e t x (some (c, some op)) := by
  refine { h with stands := ⟨?_, ?_, ?_⟩, found := ?_, got := ?_ }
  · intro hin
    cases h.stands.out hin
  · intro hin
    obtain ⟨c', o, hc, ha⟩ := h.stands.within hin
    cases ha
    exact ⟨c, some op, hc, rfl⟩
  · intro c' op' ha
    cases ha
    exact hd
  · intro c' id key ha
    cases ha
    exact hfound id key rfl
  · intro m hm
    unfold taken at hm
    split at hm
    · rename_i ha
      cases ha
      cases hm
      exact hgot _ _ _ _ rfl
    · cases hm

/-- The request of the client is in SMSG. -/
theorem Tokens.send {asked replied : List Msg} (h : Tokens t x (some (c, none)) y b asked replied)
    {id : Nat} {m : Msg} (hpc : x.pc = .send) (hm : ofTask t m = true) :
    Tokens t x (some (c, some (.send id m))) y b (asked ++ [m]) replied := by
  obtain ⟨hreq, hrep⟩ := h
  refine ⟨?_, ?_⟩
  · rw [List.countP_append, List.countP_singleton, hm]
    simp [Mfun.asking, pending, hpc] at hreq ⊢
    omega
  · simpa [Mfun.answered, hpc] using hrep

/-- The client has taken a message from its queue. -/
theorem Tokens.recv {asked replied : List Msg} (h : Tokens t x (some (c, none)) y b asked replied)
    {id : Nat} {mode : SearchMode} {type : Int} {m : Msg} (hpc : x.pc = .recv) (hm : m ∈ replied) :
    Tokens t x (some (c, some (.recv id mode type m))) y b asked (replied.erase m) := by
  obtain ⟨hreq, hrep⟩ := h
  refine ⟨by simpa [Mfun.asking, hpc] using hreq, ?_⟩
  have hpos : ofTask t m = true → 0 < replied.countP (ofTask t) :=
    fun ht => List.countP_pos_iff.mpr ⟨m, hm, ht⟩
  rw [List.countP_erase]
  cases hof : ofTask t m with
  | true =>
      have := hpos hof
      simp [Mfun.answered, taken, hpc, hof, hm] at hrep ⊢
      omega
  | false => simpa [Mfun.answered, taken, hpc, hof] using hrep

/-- The call of the client has looked at a queue, and no more. -/
theorem Tokens.look {asked replied : List Msg} (h : Tokens t x (some (c, none)) y b asked replied)
    {op : BoxOp} (hop : taken (some (c, some op)) = none) :
    Tokens t x (some (c, some op)) y b asked replied := by
  obtain ⟨hreq, hrep⟩ := h
  have hnone : taken (some (c, none)) = none := rfl
  refine ⟨?_, by simpa only [Mfun.answered, hop, hnone] using hrep⟩
  simp [Mfun.asking, pending] at hreq ⊢
  omega

/-- Queues of which no fewer messages were the client's. -/
theorem Tokens.congr {asked replied asked' replied' : List Msg}
    (h : Tokens t x a y b asked replied)
    (hasked : asked'.countP (ofTask t) ≤ asked.countP (ofTask t))
    (hreplied : replied'.countP (ofTask t) ≤ replied.countP (ofTask t)) :
    Tokens t x a y b asked' replied' := by
  obtain ⟨hreq, hrep⟩ := h
  exact ⟨by omega, by omega⟩

theorem Kind.length_le {j : Nat} {m : Msg} (h : Kind e j m) :
    m.m_text.length ≤ 4 * (MAXSIZ + 1) := by
  cases h with
  | request _ _ hdraws htext => rw [htext, length_bytesOf, length_request hdraws]
  | reply _ _ htext =>
      rw [htext, length_bytesOf]
      show 4 * 2 ≤ 4 * (MAXSIZ + 1)
      decide
  | game _ _ _ htext =>
      rw [htext]
      decide

/-- A receive that returned what it took, whole. -/
theorem received {j : Nat} {msqid type : Int} {flg : BitVec 32} {n : Nat} {mtype : Int}
    {mtext : List UInt8} (hf : Call.fits P (.msgrcv msqid (4 * (MAXSIZ + 1)) type flg true) o
      (.rcv n mtype mtext)) (hgot : ∀ m, taken (some (c, o)) = some m → Kind e j m) :
    ∃ m, taken (some (c, o)) = some m ∧ Kind e j m ∧ mtext = m.m_text := by
  cases o with
  | none => exact hf.elim
  | some op =>
      cases op with
      | recv id mode ty m =>
          have hkind := hgot m rfl
          obtain ⟨hn, -, htext⟩ := hf
          refine ⟨m, rfl, hkind, ?_⟩
          have hlen := hkind.length_le
          rw [htext, List.take_of_length_le]
          rw [hn, hkind.size]
          omega
      | _ => exact hf.elim

/-- An identifier that a call of `rt_msgget` returned, if it did. -/
theorem value_msgget {key : Int} {flg : BitVec 32} (hf : Call.fits P (.msgget key flg) o r)
    (hpos : 0 ≤ value r) : ∃ id, value r = (id : Nat) ∧
      ((∃ key', o = some (.find id key')) ∨ ∃ key', o = some (.create id key')) := by
  cases r with
  | err er =>
      exfalso
      cases er <;> exact absurd hpos (by decide)
  | ok v =>
      cases o with
      | none => exact hf.elim
      | some op =>
          cases op with
          | create id key' =>
              cases hf
              exact ⟨_, rfl, .inr ⟨key', rfl⟩⟩
          | find id key' =>
              cases hf
              exact ⟨_, rfl, .inl ⟨key', rfl⟩⟩
          | _ => exact hf.elim
  | _ =>
      cases o with
      | none => exact hf.elim
      | some op => cases op <;> exact hf.elim

/-- The identifier that `rt_msgget` found for a client or the server is the program's. -/
theorem found_msgget {j : Nat} (hj : j ≤ NTASKS) (hids : ids.length ≤ NTASKS + 1)
    (hfound : Found N ids (some (.msgget (N.key j) 0#32, o)))
    (hdoes : ∀ op, o = some op → Call.does P (.msgget (N.key j) 0#32) op)
    (hf : Call.fits P (.msgget (N.key j) 0#32) o r) (hpos : 0 ≤ value r) :
    ids[j]? = some (value r) := by
  obtain ⟨id, hv, ⟨key', rfl⟩ | ⟨key', rfl⟩⟩ := value_msgget hf hpos
  · obtain ⟨i, hi, hkey⟩ := hfound _ id key' rfl
    have hd := (hdoes _ rfl).1
    have hlt := (List.getElem?_eq_some_iff.mp hi).1
    have hij := N.inj j hj i (by omega) (hd.symm.trans hkey)
    rw [hv, hij]
    exact hi
  · exact absurd (hdoes _ rfl).2 (not_or.mpr ⟨N.ne_private j hj, by decide⟩)

/-- The reply of the server, in the array of the client. -/
theorem receive_reply {msg : List Word} {t : Nat} :
    receive msg (bytesOf [.ofNat 32 t, 0xFFFFFFFF#32]) =
      .ofNat 32 t :: 0xFFFFFFFF#32 :: msg.drop 2 :=
  receive_bytesOf msg _

/-- The client goes on with the answer that it has taken: it accepts the reply, and only
the message that ends the game is a wrong one. -/
theorem ClientOk.accept (h : ClientOk N P ids e t x a) (ht : t < NTASKS) (hpc : x.pc = .recv)
    {m : Msg} (hm : Kind e (t + 1) m) :
    ClientOk N P ids e t ({ x with inside := false }.accept t m.m_text) none ∧
      ({ x with inside := false }.accept t m.m_text).cnt =
        x.cnt + (ofTask t m).toNat := by
  have hreq := h.requests (by simp [hpc])
  have hlen := h.length (by simp [hpc])
  have howes : x.owes = 1 := by simp [Mfun.owes, hpc]
  rcases hm.answer with htext | ⟨hle, htext⟩
  · have hof : ofTask t m = true := (ofTask_reply ht ht htext).mpr rfl
    rw [htext, hof]
    have hgood : ¬ ((receive x.msg (bytesOf [.ofNat 32 t, 0xFFFFFFFF#32]))[0]? ≠
          some (.ofNat 32 t) ∨
        (receive x.msg (bytesOf [.ofNat 32 t, 0xFFFFFFFF#32]))[1]? ≠ some 0xFFFFFFFF#32) := by
      rw [receive_reply]
      simp
    unfold Mfun.accept
    simp only [if_neg hgood]
    refine ⟨?_, rfl⟩
    refine
      { stands := .outside rfl
        smbx := h.smbx
        rmbx := h.rmbx
        found := .outside
        got := nofun
        length := ?_
        first := ?_
        sending := nofun
        requests := fun _ => ?_
        last := ?_
        wrong := h.wrong
        done := nofun }
    · intro _
      show (receive _ _).length = _
      rw [receive_reply, List.length_cons, List.length_cons, List.length_drop, hlen]
      rfl
    · intro _
      show (receive _ _)[0]? = _
      rw [receive_reply]
      rfl
    · show x.requests = x.cnt + 1 + 0
      omega
    · show x.requests ≤ x.cnt + 1 + 1
      omega
  · have hof : ofTask t m = false := ofTask_game ht htext
    rw [htext, hof]
    have hbad : (receive x.msg gameMsg)[0]? ≠ some (.ofNat 32 t) ∨
        (receive x.msg gameMsg)[1]? ≠ some 0xFFFFFFFF#32 := .inl (words_gameMsg ht _)
    unfold Mfun.accept
    simp only [if_pos hbad]
    refine ⟨?_, rfl⟩
    exact
      { stands := .outside rfl
        smbx := h.smbx
        rmbx := h.rmbx
        found := .outside
        got := nofun
        length := fun hd => absurd rfl hd
        first := nofun
        sending := nofun
        requests := fun hd => absurd rfl hd
        last := h.last
        wrong := fun _ => hle
        done := fun _ => .inr hle }

theorem Tokens.accept {asked replied : List Msg} (h : Tokens t x a y b asked replied)
    (hpc : x.pc = .recv) {m : Msg} (hm : taken a = some m) {mtext : List UInt8}
    (hcnt : ({ x with inside := false }.accept t mtext).cnt = x.cnt + (ofTask t m).toNat) :
    Tokens t ({ x with inside := false }.accept t mtext) none y b asked replied := by
  obtain ⟨hreq, hrep⟩ := h
  have hrequests : ({ x with inside := false }.accept t mtext).requests = x.requests := by
    unfold Mfun.accept
    dsimp only
    split <;> rfl
  have hnot : Mfun.asking ({ x with inside := false }.accept t mtext) none = false :=
    Bool.and_false _
  have hnone : Mfun.answered t ({ x with inside := false }.accept t mtext) none = false :=
    Bool.and_false _
  refine ⟨?_, ?_⟩
  · rw [hrequests, hnot]
    simp only [Bool.toNat_false]
    omega
  · rw [hcnt, hnone]
    simp only [Mfun.answered, hpc, hm, decide_true, Bool.true_and, Option.any_some,
      Bool.toNat_false] at hrep ⊢
    omega

/-- A client that does not ask or owns no reply has only tokens elsewhere. -/
theorem Tokens.leave {asked replied : List Msg} (h : Tokens t x a y b asked replied) {x' : Mfun}
    (hreq : x'.requests = x.requests) (hcnt : x'.cnt = x.cnt) :
    Tokens t x' none y b asked replied := by
  obtain ⟨hrequests, hreplies⟩ := h
  have hnot : x'.asking none = false := Bool.and_false _
  have hnone : x'.answered t none = false := Bool.and_false _
  refine ⟨?_, ?_⟩
  · rw [hreq, hnot]
    simp only [Bool.toNat_false]
    omega
  · rw [hcnt, hnone]
    simp only [Bool.toNat_false]
    omega

/-- The call of the client returns. -/
theorem ClientOk.ret (h : ClientOk N P ids e t x (some (c, o))) (ht : t < NTASKS)
    (hids : ids.length ≤ NTASKS + 1) (hf : Call.fits P c o r) {asked replied : List Msg}
    (htok : Tokens t x (some (c, o)) y b asked replied) :
    ClientOk N P ids e t (x.ret t r) none ∧ Tokens t (x.ret t r) none y b asked replied := by
  have hin : x.inside = true := by
    cases hx : x.inside with
    | true => rfl
    | false => cases h.stands.out hx
  obtain ⟨c', o', hc, ha⟩ := h.stands.within hin
  cases ha
  have hdoes : ∀ op, o = some op → Call.does P c op := by
    intro op ho
    subst ho
    exact h.stands.does c op rfl
  have hreq := h.requests
  have hfail : ∀ x' : Mfun, x' = { x with inside := false, failed := true, pc := .done } →
      ClientOk N P ids e t x' none ∧ Tokens t x' none y b asked replied := by
    rintro x' rfl
    exact ⟨
      { stands := .outside rfl
        smbx := h.smbx
        rmbx := h.rmbx
        found := .outside
        got := nofun
        length := fun hd => absurd rfl hd
        first := nofun
        sending := nofun
        requests := fun hd => absurd rfl hd
        last := h.last
        wrong := h.wrong
        done := fun _ => .inl rfl }, htok.leave rfl rfl⟩
  unfold Mfun.ret
  dsimp only
  split
  · rename_i hpc
    simp only [Mfun.call, hpc, Option.some.injEq] at hc
    subst hc
    refine ⟨?_, htok.leave rfl rfl⟩
    exact
      { stands := .outside rfl
        smbx := found_msgget (Nat.zero_le _) hids h.found hdoes hf
        rmbx := h.rmbx
        found := .outside
        got := nofun
        length := fun _ => h.length (by simp [hpc])
        first := fun _ => h.first (by simp [hpc])
        sending := nofun
        requests := fun _ => by simpa [Mfun.owes, hpc] using hreq (by simp [hpc])
        last := h.last
        wrong := h.wrong
        done := nofun }
  · rename_i hpc
    simp only [Mfun.call, hpc, Option.some.injEq] at hc
    subst hc
    refine ⟨?_, htok.leave rfl rfl⟩
    exact
      { stands := .outside rfl
        smbx := h.smbx
        rmbx := found_msgget ht hids h.found hdoes hf
        found := .outside
        got := nofun
        length := fun _ => h.length (by simp [hpc])
        first := fun _ => h.first (by simp [hpc])
        sending := nofun
        requests := fun _ => by simpa [Mfun.owes, hpc] using hreq (by simp [hpc])
        last := h.last
        wrong := h.wrong
        done := nofun }
  · rename_i hpc
    split
    · refine ⟨?_, htok.leave rfl rfl⟩
      exact
        { stands := .outside rfl
          smbx := h.smbx
          rmbx := h.rmbx
          found := .outside
          got := nofun
          length := fun _ => by simpa using h.length (by simp [hpc])
          first := by simp
          sending := nofun
          requests := fun _ => by simpa [Mfun.owes, hpc, hin] using hreq (by simp [hpc])
          last := h.last
          wrong := h.wrong
          done := nofun }
    · exact hfail _ rfl
  · rename_i hpc
    simp only [Mfun.call, hpc, Option.some.injEq] at hc
    subst hc
    split
    · obtain ⟨m, hm, hkind, htext⟩ := received hf h.got
      rw [htext]
      obtain ⟨hok, hcnt⟩ := h.accept ht hpc hkind
      exact ⟨hok, htok.accept hpc hm hcnt⟩
    · exact hfail _ rfl
  · rename_i h₁ h₂ h₃ h₄
    exfalso
    unfold Mfun.call at hc
    split at hc <;> contradiction

/-- The client moves on between its calls. -/
theorem ClientOk.own {k k' : Game} {draws : List Word}
    (h : ClientOk N P ids k.end_ t (k.mfun t) a) {asked replied : List Msg}
    (htok : Tokens t (k.mfun t) a y b asked replied) (hs : k.ownMfun t draws = some k') :
    ∃ x', k' = k.setMfun t x' ∧ ClientOk N P ids k.end_ t x' a ∧
      Tokens t x' a y b asked replied := by
  have hreq := h.requests
  have hlast := h.last
  have hnone : ∀ {pc : MfunPc}, (k.mfun t).pc = pc → pc ∈ [MfunPc.barrier, .loop] →
      (k.mfun t).inside = false ∧ a = none := by
    intro pc hpc hmem
    cases hin : (k.mfun t).inside with
    | false => exact ⟨rfl, h.stands.out hin⟩
    | true =>
        obtain ⟨c, o, hc, -⟩ := h.stands.within hin
        unfold Mfun.call at hc
        rw [hpc] at hc
        rcases List.mem_pair.mp hmem with rfl | rfl <;> cases hc
  unfold Game.ownMfun at hs
  dsimp only at hs
  split at hs
  · rename_i hpc
    obtain ⟨hin, rfl⟩ := hnone hpc (by simp)
    split at hs
    · cases hs
      refine ⟨_, rfl, ?_, htok.leave rfl rfl⟩
      exact
        { stands := .outside hin
          smbx := h.smbx
          rmbx := h.rmbx
          found := .outside
          got := nofun
          length := fun _ => h.length (by simp [hpc])
          first := fun _ => h.first (by simp [hpc])
          sending := nofun
          requests := fun _ => by simpa [Mfun.owes, hpc] using hreq (by simp [hpc])
          last := hlast
          wrong := h.wrong
          done := nofun }
    · cases hs
  · rename_i hpc
    obtain ⟨hin, rfl⟩ := hnone hpc (by simp)
    split at hs
    · split at hs
      · rename_i hdraws
        cases hs
        have hfill := fill_request (h.length (by simp [hpc])) (h.first (by simp [hpc])) hdraws
        refine ⟨_, rfl, ?_, htok.leave rfl rfl⟩
        exact
          { stands := .outside hin
            smbx := h.smbx
            rmbx := h.rmbx
            found := .outside
            got := nofun
            length := fun _ => by
              show (fill _ _ _).length = _
              rw [hfill, length_request hdraws]
            first := by simp
            sending := fun _ => ⟨draws, hdraws, hfill⟩
            requests := fun _ => by simpa [Mfun.owes, hpc, hin] using hreq (by simp [hpc])
            last := hlast
            wrong := h.wrong
            done := nofun }
      · cases hs
    · rename_i hend
      cases hs
      refine ⟨_, rfl, ?_, htok.leave rfl rfl⟩
      exact
        { stands := .outside hin
          smbx := h.smbx
          rmbx := h.rmbx
          found := .outside
          got := nofun
          length := fun hd => absurd rfl hd
          first := nofun
          sending := nofun
          requests := fun hd => absurd rfl hd
          last := hlast
          wrong := h.wrong
          done := fun _ => .inr (not_lt.mp hend) }
  · cases hs

/-! ## Steps of the server -/

theorem toNat_ofNat {t : Nat} (ht : t < NTASKS) : (BitVec.ofNat 32 t).toNat = t := by
  have hn : NTASKS = 10 := rfl
  rw [BitVec.toNat_ofNat]
  omega

/-- The server invokes its call. -/
theorem ServerOk.enter (h : ServerOk N P ids e y b) (hc : y.call N = some c) :
    ServerOk N P ids e y.enter (some (c, none)) := by
  obtain ⟨pc, inside, smbx, rmbx, msg, unknown, failed, oob, replies⟩ := y
  cases pc <;> exact { h with stands := .invoked rfl hc, found := .invoked, got := nofun }

theorem Tokens.serverEnter {asked replied : List Msg} (h : Tokens t x a y none asked replied)
    (hok : ServerOk N P ids e y none) (ht : t < NTASKS) :
    Tokens t x a y.enter (some (c, none)) asked replied := by
  have hsending := hok.sending
  obtain ⟨pc, inside, smbx, rmbx, msg, unknown, failed, oob, replies⟩ := y
  obtain ⟨hreq, hrep⟩ := h
  cases pc with
  | send id =>
      -- the token goes from the server's hands into its call
      obtain ⟨t', rest, ht', -, rfl⟩ := hsending id rfl
      have hto : Bfun.to ⟨.send id, inside, smbx, rmbx, .ofNat 32 t' :: 0xFFFFFFFF#32 :: rest,
          unknown, failed, oob, replies⟩ = t' := toNat_ofNat ht'
      by_cases htt : t = t'
      · subst htt
        simp only [inHand, answering, pending, List.getElem?_cons_zero, beq_self_eq_true,
          Option.isNone_none, Bool.and_true, Bool.toNat_true, Bool.toNat_false] at hreq hrep
        refine ⟨?_, ?_⟩ <;>
          simp only [Bfun.enter, hto, inHand, answering, pending, Function.update_self,
            Option.isNone_some, Bool.false_and, Bool.true_and, List.getElem?_cons_zero,
            beq_self_eq_true, Bool.toNat_true, Bool.toNat_false] <;>
          omega
      · have hne : (some (BitVec.ofNat 32 t') == some (BitVec.ofNat 32 t)) = false := by
          rw [beq_eq_false_iff_ne, Ne, Option.some.injEq, ofNat_inj ht' ht]
          exact fun he => htt he.symm
        simp only [inHand, answering, List.getElem?_cons_zero, hne, Bool.and_false,
          Bool.toNat_false] at hreq hrep
        refine ⟨?_, ?_⟩ <;>
          simp only [Bfun.enter, hto, inHand, answering, Function.update_of_ne htt,
            List.getElem?_cons_zero, hne, Bool.and_false, Bool.toNat_false] <;>
          omega
  | _ => exact ⟨hreq, hrep⟩

/-- What the call of the server may come to. -/
inductive ServerOp (N : Names) (y : Bfun) : BoxOp → Prop
  | find {id j} (hpc : y.pc = .getSmbx ∧ j = 0 ∨ y.pc = .getRmbx ∧ j = y.rmbx.length + 1) :
      ServerOp N y (.find id (N.key j))
  | send {id : Nat} {m rmbx} (hpc : y.pc = .send rmbx) (hid : (id : Int) = rmbx)
      (hsize : m.m_ts = m.m_text.length) (htext : m.m_text = bytesOf (y.msg.take 2)) :
      ServerOp N y (.send id m)
  | recv {id : Nat} {mode type m} (hpc : y.pc = .recv) (hid : (id : Int) = y.smbx) :
      ServerOp N y (.recv id mode type m)
  | meet {what} : ServerOp N y (.meet what)

theorem ServerOp.of_does (h : ServerOk N P ids e y b) (hc : y.call N = some c) {op : BoxOp}
    (hd : Call.does P c op) : ServerOp N y op := by
  unfold Bfun.call at hc
  split at hc
  · rename_i hpc
    cases hc
    obtain ⟨id, rfl⟩ | ⟨what, rfl⟩ := does_msgget (Nat.zero_le _) hd
    · exact .find (.inl ⟨hpc, rfl⟩)
    · exact .meet
  · rename_i hpc
    cases hc
    obtain ⟨id, rfl⟩ | ⟨what, rfl⟩ := does_msgget (h.asking (by simp [hpc])) hd
    · exact .find (.inr ⟨hpc, rfl⟩)
    · exact .meet
  · rename_i hpc
    cases hc
    cases op with
    | recv id mode type m => exact .recv hpc hd.1
    | meet what => exact .meet
    | _ => exact hd.elim
  · rename_i rmbx hpc
    cases hc
    cases op with
    | send id m =>
        obtain ⟨hid, -, -, hsize, htext⟩ := hd
        rw [← htext] at hsize
        exact .send hpc hid hsize htext
    | meet what => exact .meet
    | _ => exact hd.elim
  · cases hc

/-- The call of the server has its effect. -/
theorem ServerOk.op (h : ServerOk N P ids e y (some (c, none))) {op : BoxOp}
    (hd : Call.does P c op)
    (hfound : ∀ id key, op = .find id key → ∃ j, ids[j]? = some (id : Int) ∧ key = N.key j)
    (hgot : ∀ id mode type m, op = .recv id mode type m → Kind e 0 m) :
    ServerOk N P ids e y (some (c, some op)) := by
  refine { h with stands := ⟨?_, ?_, ?_⟩, found := ?_, got := ?_ }
  · intro hin
    cases h.stands.out hin
  · intro hin
    obtain ⟨c', o, hc, ha⟩ := h.stands.within hin
    cases ha
    exact ⟨c, some op, hc, rfl⟩
  · intro c' op' ha
    cases ha
    exact hd
  · intro c' id key ha
    cases ha
    exact hfound id key rfl
  · intro m hm
    unfold taken at hm
    split at hm
    · rename_i ha
      cases ha
      cases hm
      exact hgot _ _ _ _ rfl
    · cases hm

/-- The server has taken a message from SMSG. -/
theorem Tokens.serverRecv {asked replied : List Msg}
    (h : Tokens t x a y (some (c, none)) asked replied) {id : Nat} {mode : SearchMode} {type : Int}
    {m : Msg} (hpc : y.pc = .recv) (hm : m ∈ asked) :
    Tokens t x a y (some (c, some (.recv id mode type m))) (asked.erase m) replied := by
  obtain ⟨hreq, hrep⟩ := h
  refine ⟨?_, by simpa [answering, hpc] using hrep⟩
  have hpos : ofTask t m = true → 0 < asked.countP (ofTask t) :=
    fun ht => List.countP_pos_iff.mpr ⟨m, hm, ht⟩
  rw [List.countP_erase]
  cases hof : ofTask t m with
  | true =>
      have := hpos hof
      simp [inHand, taken, hpc, hof, hm] at hreq ⊢
      omega
  | false => simpa [inHand, taken, hpc, hof] using hreq

/-- The reply of the server is in the queue of the client that it was for. -/
theorem Tokens.serverSend {asked replied replied' : List Msg}
    (h : Tokens t x a y (some (c, none)) asked replied) {id : Nat} {m : Msg} {rmbx : Int}
    (hpc : y.pc = .send rmbx)
    (hreplied : replied'.countP (ofTask t) ≤
      replied.countP (ofTask t) + (y.msg[0]? == some (.ofNat 32 t)).toNat) :
    Tokens t x a y (some (c, some (.send id m))) asked replied' := by
  obtain ⟨hreq, hrep⟩ := h
  simp only [inHand, answering, pending, hpc, Option.isNone_some, Bool.true_and, Bool.false_and,
    Bool.toNat_false] at hreq hrep
  refine ⟨?_, ?_⟩
  · simp only [inHand, hpc, Option.isNone_some, Bool.false_and, Bool.toNat_false]
    omega
  · simp only [answering, pending, hpc, Bool.false_and, Bool.toNat_false]
    omega

/-- The call of the server has looked at a queue, and no more. -/
theorem Tokens.serverLook {asked replied : List Msg}
    (h : Tokens t x a y (some (c, none)) asked replied) {op : BoxOp}
    (hop : taken (some (c, some op)) = none) :
    Tokens t x a y (some (c, some op)) asked replied := by
  obtain ⟨hreq, hrep⟩ := h
  have hhand : inHand t y (some (c, some op)) = inHand t y (some (c, none)) := by
    unfold inHand
    rw [hop]
    rfl
  have hless : (answering t y (some (c, some op))).toNat ≤
      (answering t y (some (c, none))).toNat := by
    have hno : answering t y (some (c, some op)) = false := by
      unfold answering
      split <;> rfl
    rw [hno]
    exact Nat.zero_le _
  refine ⟨?_, by omega⟩
  rw [hhand]
  exact hreq

/-- The server with the request that it has taken in its array. -/
theorem ServerOk.asked_by {y : Bfun} {m : Msg} (hm : Kind e 0 m) :
    ((∃ t w rest, t < NTASKS ∧ receive y.msg m.m_text = .ofNat 32 t :: w :: rest) ∨
      (NTASKS : Int) ≤ e) ∧
    (unknownMsg (receive y.msg m.m_text) = true → (NTASKS : Int) ≤ e) ∧
    ∀ t < NTASKS, ((receive y.msg m.m_text)[0]? == some (.ofNat 32 t)) = ofTask t m := by
  rcases hm.taken with ⟨t, draws, ht, hdraws, htext⟩ | ⟨hle, htext⟩
  · have hrec := receive_bytesOf y.msg (request t draws)
    rw [htext, hrec]
    refine ⟨.inl ?_, ?_, ?_⟩
    · cases draws with
      | nil => cases hdraws
      | cons w draws => exact ⟨t, w, _, ht, rfl⟩
    · intro hu
      rw [known_request hdraws] at hu
      cases hu
    · intro t' ht'
      rw [Bool.eq_iff_iff, ofTask_request ht ht' htext, beq_iff_eq]
      show some (BitVec.ofNat 32 t) = some _ ↔ _
      rw [Option.some.injEq, ofNat_inj ht ht', eq_comm]
  · refine ⟨.inr hle, fun _ => hle, ?_⟩
    intro t ht
    rw [ofTask_game ht htext, htext]
    exact beq_eq_false_iff_ne.mpr (words_gameMsg ht _)

/-- The server goes on with nothing in hand and nothing on the way. -/
theorem Tokens.serverLeave {asked replied : List Msg} (h : Tokens t x a y b asked replied)
    {y' : Bfun} {b' : Place} (hrep : y'.replies t = y.replies t) (hhand : inHand t y' b' = false)
    (hans : answering t y' b' = false) : Tokens t x a y' b' asked replied := by
  obtain ⟨hrequests, hreplies⟩ := h
  refine ⟨?_, ?_⟩
  · rw [hrep, hhand]
    simp only [Bool.toNat_false]
    omega
  · rw [hrep, hans]
    simp only [Bool.toNat_false]
    omega

/-- The call of the server returns, a receive with a message. -/
theorem ServerOk.ret (h : ServerOk N P ids e y (some (c, o))) (hids : ids.length ≤ NTASKS + 1)
    (hf : Call.fits P c o r) (hfail : (y.ret r).failed = false) :
    ServerOk N P ids e (y.ret r) none ∧ ∀ t < NTASKS, ∀ x a asked replied,
      Tokens t x a y (some (c, o)) asked replied → Tokens t x a (y.ret r) none asked replied := by
  have hin : y.inside = true := by
    cases hy : y.inside with
    | true => rfl
    | false => cases h.stands.out hy
  obtain ⟨c', o', hc, ha⟩ := h.stands.within hin
  cases ha
  have hdoes : ∀ op, o = some op → Call.does P c op := by
    intro op ho
    subst ho
    exact h.stands.does c op rfl
  unfold Bfun.ret at hfail ⊢
  dsimp only at hfail ⊢
  split
  · rename_i hpc
    simp only [Bfun.call, hpc, Option.some.injEq] at hc
    subst hc
    refine ⟨?_, fun t _ x a asked replied htok => htok.serverLeave rfl rfl rfl⟩
    exact
      { h with
        stands := .outside rfl
        smbx := found_msgget (Nat.zero_le _) hids h.found hdoes hf
        found := .outside
        got := nofun
        asking := fun _ => h.asking (by simp [hpc])
        asked := by simp
        reply := nofun
        sending := nofun }
  · rename_i hpc
    have hlt := h.asking (by simp [hpc])
    simp only [Bfun.call, hpc, Option.some.injEq] at hc
    subst hc
    refine ⟨?_, fun t _ x a asked replied htok => ?_⟩
    · refine
        { h with
          stands := .outside rfl
          rmbx := ?_
          found := .outside
          got := nofun
          asking := ?_
          asked := ?_
          reply := fun hpc' => ?_
          sending := fun rmbx hpc' => ?_ }
      · intro i id hi hpos
        rw [List.getElem?_append] at hi
        split at hi
        · exact h.rmbx i id hi hpos
        · rename_i hge
          rw [List.getElem?_singleton] at hi
          split at hi
          · cases hi
            have hieq : i = y.rmbx.length := by omega
            rw [hieq]
            exact found_msgget hlt hids h.found hdoes hf hpos
          · cases hi
      · dsimp only
        split
        · intro _
          rw [List.length_append, List.length_singleton]
          assumption
        · simp
      · dsimp only
        split
        · simp
        · intro _
          rw [List.length_append, List.length_singleton]
          omega
      · dsimp only at hpc'
        split at hpc' <;> cases hpc'
      · dsimp only at hpc'
        split at hpc' <;> cases hpc'
    · refine htok.serverLeave rfl ?_ ?_ <;> simp only [inHand, answering] <;> split <;>
        rename_i hpc' <;> first | rfl | (split at hpc' <;> cases hpc')
  · rename_i hpc
    have hlen := h.asked (by simp [hpc])
    simp only [Bfun.call, hpc, Option.some.injEq] at hc
    subst hc
    rw [hpc] at hfail
    dsimp only at hfail
    split at hfail
    · obtain ⟨m, hm, hkind, rfl⟩ := received hf h.got
      obtain ⟨hreply, hunknown, htask⟩ := ServerOk.asked_by (y := y) hkind
      refine ⟨?_, fun t ht x a asked replied htok => ?_⟩
      · exact
          { h with
            stands := .outside rfl
            found := .outside
            got := nofun
            asking := by simp
            asked := fun _ => hlen
            reply := fun _ => hreply
            sending := nofun
            unknown := fun hu => (Bool.or_eq_true_iff.mp hu).elim h.unknown hunknown }
      · obtain ⟨hreq, hrep⟩ := htok
        have hof := htask t ht
        simp only [inHand, answering, hpc, hm, Option.any_some] at hreq hrep
        refine ⟨?_, ?_⟩
        · simp only [inHand, hof]
          omega
        · simp only [answering]
          omega
    · cases hfail
  · rename_i hpc
    refine ⟨?_, fun t _ x a asked replied htok => htok.serverLeave rfl rfl rfl⟩
    exact
      { h with
        stands := .outside rfl
        found := .outside
        got := nofun
        asking := by simp
        asked := fun _ => h.asked (by simp [hpc])
        reply := nofun
        sending := nofun }
  · exfalso
    unfold Bfun.call at hc
    split at hc <;> simp_all

/-- The server moves on between its calls. -/
theorem ServerOk.own {k k' : Game} (h : ServerOk N P ids k.end_ k.bfun b)
    (hs : k.ownBfun = some k') :
    ∃ y', k' = { k with bfun := y' } ∧ ServerOk N P ids k.end_ y' b ∧
      ∀ t < NTASKS, ∀ x a asked replied, Tokens t x a k.bfun b asked replied →
        Tokens t x a y' b asked replied := by
  have hnone : ∀ {pc : BfunPc}, k.bfun.pc = pc → pc ∈ [BfunPc.barrier, .loop, .reply] →
      k.bfun.inside = false ∧ b = none := by
    intro pc hpc hmem
    cases hin : k.bfun.inside with
    | false => exact ⟨rfl, h.stands.out hin⟩
    | true =>
        obtain ⟨c, o, hc, -⟩ := h.stands.within hin
        unfold Bfun.call at hc
        rw [hpc] at hc
        simp only [List.mem_cons, List.not_mem_nil, or_false] at hmem
        rcases hmem with rfl | rfl | rfl <;> cases hc
  unfold Game.ownBfun at hs
  dsimp only at hs
  split at hs
  · rename_i hpc
    obtain ⟨hin, rfl⟩ := hnone hpc (by simp)
    split at hs
    · cases hs
      refine ⟨_, rfl, ?_, fun t _ x a asked replied htok => htok.serverLeave rfl rfl rfl⟩
      exact
        { h with
          stands := .outside hin
          asking := by simp
          asked := fun _ => h.asked (by simp [hpc])
          reply := nofun
          sending := nofun }
    · cases hs
  · rename_i hpc
    obtain ⟨hin, rfl⟩ := hnone hpc (by simp)
    split at hs <;> cases hs <;>
      exact ⟨_, rfl,
        { h with
          stands := .outside hin
          asking := by simp
          asked := fun _ => h.asked (by simp [hpc])
          reply := nofun
          sending := nofun }, fun t _ x a asked replied htok => htok.serverLeave rfl rfl rfl⟩
  · rename_i hpc
    obtain ⟨hin, rfl⟩ := hnone hpc (by simp)
    have hlen := h.asked (by simp [hpc])
    split at hs
    · cases hs
      exact ⟨_, rfl,
        { h with
          stands := .outside hin
          asking := by simp
          asked := fun _ => hlen
          reply := nofun
          sending := nofun }, fun t _ x a asked replied htok => htok.serverLeave rfl rfl rfl⟩
    · rename_i hend
      obtain ⟨t, w, rest, ht, hmsg⟩ | hle := h.reply hpc
      swap
      · exact absurd hle hend
      have hto : k.bfun.to = t := by
        unfold Bfun.to
        rw [hmsg]
        exact toNat_ofNat ht
      rw [hto] at hs
      split at hs
      · rename_i hnil
        rw [List.getElem?_eq_none_iff] at hnil
        omega
      · rename_i rmbx hget
        cases hs
        refine ⟨_, rfl, ?_, fun t' ht' x a asked replied htok => ?_⟩
        · exact
            { h with
              stands := .outside hin
              asking := by simp
              asked := fun _ => hlen
              reply := nofun
              sending := fun rmbx' hr => by
                cases hr
                exact ⟨t, rest, ht, hget, by rw [hmsg]; rfl⟩ }
        · obtain ⟨hreq, hrep⟩ := htok
          simp only [inHand, answering, hpc] at hreq hrep
          have hset : (k.bfun.msg.set 1 0xFFFFFFFF#32)[0]? = k.bfun.msg[0]? := by simp
          refine ⟨?_, ?_⟩
          · simp only [inHand, hset, Option.isNone_none, Bool.true_and]
            exact hreq
          · simp only [answering, pending, Bool.false_and]
            exact hrep
  · cases hs

end RtaiDemos.Sysvmsg.TestMsg
