import Mathlib.Algebra.BigOperators.Group.Finset.Basic
import Mathlib.Data.BitVec
import RtaiDemos.Scrambler.Theorems.RoundTrip

/-!
# What the checksum detects

`decode` unscrambles all words of a frame, sums all but the last and compares the
sum with the last, which it overwrites with the sum. So an altered frame passes
exactly if the changes of its other words add up to the change of its last one, and
never if only one word was altered.
-/

namespace RtaiDemos.Scrambler

open Finset

variable {A : Abi}

/-- Word `i` of a frame, unscrambled. -/
def plain (Key : Word A) (msg : List (Word A)) (i : Nat) : Word A := msg[i]?.getD 0 ^^^ Key

/-- How the unscrambled word `i` has changed on the way. -/
def change (Key : Word A) (sent received : List (Word A)) (i : Nat) : Word A :=
  plain Key received i - plain Key sent i

theorem frobbed_getElem? (Key : Word A) {n i : Nat} {msg : List (Word A)} (hi : i < n)
    (hn : n ≤ msg.length) : (frobbed Key n msg)[i]? = some (plain Key msg i) := by
  have hlen : i < ((msg.take n).map (· ^^^ Key)).length := by
    rw [List.length_map, List.length_take]
    omega
  unfold frobbed plain
  rw [List.getElem?_append_left hlen, List.getElem?_map, List.getElem?_take_of_lt hi,
    List.getElem?_eq_getElem (show i < msg.length by omega)]
  rfl

theorem sumWords_take (msg : List (Word A)) {k : Nat} (hk : k ≤ msg.length) (f : Nat → Word A)
    (hf : ∀ i < k, msg[i]? = some (f i)) : sumWords (msg.take k) = ∑ i ∈ range k, f i := by
  induction k with
  | zero => rfl
  | succ k ih =>
      have hlast : msg[k]? = some (f k) := hf k (Nat.lt_succ_self k)
      have hsum : sumWords (msg.take k) = ∑ i ∈ range k, f i :=
        ih (by omega) fun i hi => hf i (by omega)
      rw [sum_range_succ, ← hsum, List.take_add_one, hlast]
      unfold sumWords
      rw [List.foldl_append]
      rfl

/-- `decode` prints nothing if the words before the last add up to it. -/
theorem verdict_none_iff (portslotp : PortSlot A) (w : Where) (Key : Word A) {n : Nat}
    {msg : List (Word A)} (hpos : 0 < n) (hn : n ≤ msg.length) :
    verdict portslotp w (n - 1) (frobbed Key n msg) = none ↔
      ∑ i ∈ range (n - 1), plain Key msg i = plain Key msg (n - 1) := by
  have hlast := frobbed_getElem? Key (show n - 1 < n by omega) hn
  have hsum := sumWords_take (frobbed Key n msg) (k := n - 1)
    (by rw [frobbed_length]; omega) (plain Key msg)
    fun i hi => frobbed_getElem? Key (by omega) hn
  unfold verdict
  rw [hlast, hsum, ite_eq_right_iff]
  simp

/-- What it prints are the two sums, and they differ. -/
theorem verdict_some {portslotp : PortSlot A} {w : Where} {k : Nat} {msg : List (Word A)}
    (hk : k < msg.length) (h : verdict portslotp w k msg ≠ none) :
    ∃ err, verdict portslotp w k msg = some err ∧ err.new ≠ err.old := by
  unfold verdict at h ⊢
  rw [List.getElem?_eq_getElem hk] at h ⊢
  by_cases heq : some (sumWords (msg.take k)) ≠ some msg[k]
  · rw [if_pos heq]
    exact ⟨_, rfl, fun hsame => heq (congrArg some hsame)⟩
  · rw [if_neg heq] at h
    exact absurd rfl h

/-- Different words have different changes. -/
theorem change_eq_zero_iff (Key : Word A) {sent received : List (Word A)} {i : Nat}
    (hs : i < sent.length) (hr : i < received.length) :
    change Key sent received i = 0 ↔ received[i]? = sent[i]? := by
  unfold change plain
  rw [sub_eq_zero, List.getElem?_eq_getElem hs, List.getElem?_eq_getElem hr, Option.some_inj,
    Option.getD_some, Option.getD_some]
  refine ⟨?_, fun h => by rw [h]⟩
  intro h
  rw [← xor_xor received[i] Key, h, xor_xor]

/-- The byte sizes that make a frame: a port message has one byte at least, and an RPC
with its two words an `int` of bytes (where `int` is narrower than `long`; otherwise
there is nothing to ask). -/
def Sendable (A : Abi) (w : Where) (b : Nat) : Prop :=
  (w = .PRT_REQ ∨ w = .PRT_RTR) ∧ 1 ≤ b ∨
  (w = .RPC_REQ ∨ w = .RPC_RTR) ∧
    (A.intBits = A.longBits ∨ (A.words b + 2) * A.sizeofLong < 2 ^ (A.intBits - 1))

/-- What `encode` produces: a scrambled frame with its checksum as the last word. -/
structure Produced (Key : Word A) (e : Encoded A) (w : Where) (f : Nat) : Prop where
  framed : Framed e.size f
  room : A.words f ≤ e.msg.length
  checked : ∑ i ∈ range (A.words f - 1), plain Key e.msg i = plain Key e.msg (A.words f - 1)
  kind : (w = .PRT_REQ ∨ w = .PRT_RTR) ∨
    (w = .RPC_REQ ∨ w = .RPC_RTR) ∧ 4 < e.msg.length ∧ ∃ m, f = (m + 2) * A.sizeofLong

theorem produced_of_summed {Key : Word A} {e : Encoded A} {w : Where} {f : Nat}
    (body : List (Word A)) (hframed : Framed e.size f) (hroom : A.words f ≤ body.length)
    (hmsg : e.msg = frobbed Key (A.words f) (summed (A.words f - 1) body))
    (hkind : (w = .PRT_REQ ∨ w = .PRT_RTR) ∨
      (w = .RPC_REQ ∨ w = .RPC_RTR) ∧ 4 < body.length ∧ ∃ m, f = (m + 2) * A.sizeofLong) :
    Produced Key e w f := by
  have hpos := hframed.pos
  have hlen : e.msg.length = body.length := by rw [hmsg, frobbed_length, summed_length]
  refine ⟨hframed, by omega, ?_, by rw [hlen]; exact hkind⟩
  rw [← verdict_none_iff ⟨0, fun _ => 0, 0⟩ .PRT_SRV Key hpos (by omega), hmsg,
    frobbed_frobbed Key (by rw [summed_length]; exact hroom)]
  exact verdict_summed _ _ (by omega)

theorem encode_produced {N : NetRpc A} {Key : Word A} {funindx : CInt A → CInt A}
    {portslotp : PortSlot A} {msg : List (Word A)} {size : CInt A} {b : Nat} {w : Where}
    {e : Encoded A} (hlong : A.sizeofLong ≤ 2 ^ (A.intBits - 1)) (hsize : size.toInt = b)
    (hsend : Sendable A w b) (he : encode N Key funindx portslotp msg size w = some e) :
    ∃ f, Produced Key e w f := by
  have hs := sized_of_toInt hsize
  have hlt := (counts_of_toInt hsize).1
  rcases hsend with ⟨hw, hb⟩ | ⟨hw, hfits⟩
  · have hframed := hs.framed_of_pos (.inl hlt) hlong hb
    have hroom := hframed.room_port hw he
    rw [hframed.encode_port N Key funindx portslotp hw hroom] at he
    obtain rfl := Option.some.inj he
    exact ⟨b, produced_of_summed msg hframed hroom rfl (.inl hw)⟩
  · have hc := counts_rpc hlt hfits
    obtain ⟨hroom, hfour⟩ := room_rpc hs hc hw he
    obtain ⟨funindx', henc⟩ := encode_rpc hs hc N Key funindx portslotp hw hroom hfour
    rw [henc] at he
    obtain rfl := Option.some.inj he
    have hframed := (hs.frameSize hc).framed hc (Nat.le_mul_of_pos_left _ (by omega))
    refine ⟨(A.words b + 2) * A.sizeofLong,
      produced_of_summed (msg.set (A.words b) (ofCInt size)) hframed ?_ ?_ ?_⟩
    · rw [A.words_mul, List.length_set]
      exact hroom
    · rw [A.words_mul]
      rfl
    · rw [List.length_set]
      exact .inr ⟨hw, hfour, _, rfl⟩

/-- `decode` of anything of the size of such a frame comes to an end. -/
theorem Produced.decode_some {Key : Word A} {e : Encoded A} {w : Where} {f : Nat}
    (h : Produced Key e w f) (N : NetRpc A) (portslotp : PortSlot A) {received : List (Word A)}
    (hlen : e.msg.length ≤ received.length) :
    ∃ d, decode N Key portslotp received e.size w.peer = some d ∧
      d.error = verdict portslotp w.peer (A.words f - 1) (frobbed Key (A.words f) received) := by
  have hroom := h.room
  rw [h.framed.decode_eq N Key portslotp w.peer (by omega)]
  rcases h.kind with hw | ⟨hw, hfour, m, rfl⟩
  · rcases hw with rfl | rfl
    · exact ⟨_, rfl, rfl⟩
    · exact ⟨_, rfl, rfl⟩
  · have hpeer : w.peer = .RPC_SRV ∨ w.peer = .RPC_RCV := by
      rcases hw with rfl | rfl
      · exact .inl rfl
      · exact .inr rfl
    rw [A.words_mul] at hroom ⊢
    obtain ⟨r, hr, _⟩ := serve_eq N w.peer (summed (m + 2 - 1) (frobbed Key (m + 2) received))
      (by rw [summed_length, frobbed_length]; omega)
    rw [carriedSize, if_pos hpeer, h.framed.sized.length_index,
      List.getElem?_eq_getElem (by rw [summed_length, frobbed_length]; omega), hr]
    exact ⟨_, rfl, rfl⟩

/-- **What the checksum detects.** A frame that `encode` produced arrives with any of
its words altered: `decode` reports no error if and only if the changes of the other
words add up to the change of the checksum; so it reports every frame of which one
word was altered. -/
theorem checksum_detects (N N' : NetRpc A) (Key : Word A) (funindx : CInt A → CInt A)
    (portslotp portslotp' : PortSlot A) {msg : List (Word A)} {size : CInt A} {b : Nat} {w : Where}
    {e : Encoded A} (hlong : A.sizeofLong ≤ 2 ^ (A.intBits - 1)) (hsize : size.toInt = b)
    (hsend : Sendable A w b) (he : encode N Key funindx portslotp msg size w = some e)
    (received : List (Word A)) (hlen : e.msg.length ≤ received.length) :
    ∃ n d, n = (XTOLONGSIZE e.size).toNat ∧ 0 < n ∧ n ≤ e.msg.length ∧
      decode N' Key portslotp' received e.size w.peer = some d ∧
      (d.error = none ↔
        ∑ i ∈ range (n - 1), change Key e.msg received i = change Key e.msg received (n - 1)) ∧
      ((∃ j < n, received[j]? ≠ e.msg[j]? ∧ ∀ i < n, i ≠ j → received[i]? = e.msg[i]?) →
        ∃ err, d.error = some err ∧ err.new ≠ err.old) := by
  obtain ⟨f, hf⟩ := encode_produced hlong hsize hsend he
  obtain ⟨d, hd, herror⟩ := hf.decode_some N' portslotp' hlen
  have hpos := hf.framed.pos
  have hroom := hf.room
  have hnone : d.error = none ↔ ∑ i ∈ range (A.words f - 1), change Key e.msg received i =
      change Key e.msg received (A.words f - 1) := by
    rw [herror, verdict_none_iff _ _ _ hpos (by omega)]
    unfold change
    rw [sum_sub_distrib, hf.checked, sub_left_inj]
  refine ⟨A.words f, d, hf.framed.sized.xtolongsize.symm, hpos, hroom, hd, hnone, ?_⟩
  rintro ⟨j, hj, hne, hsame⟩
  have hzero : ∀ i < A.words f, i ≠ j → change Key e.msg received i = 0 := by
    intro i hi hij
    exact (change_eq_zero_iff Key (by omega) (by omega)).mpr (hsame i hi hij)
  have hnot : d.error ≠ none := by
    intro hno
    refine hne ((change_eq_zero_iff Key (by omega) (by omega)).mp ?_)
    have hsum := hnone.mp hno
    by_cases hlast : j = A.words f - 1
    · rw [hlast, ← hsum]
      refine sum_eq_zero fun i hi => hzero i ?_ ?_
      · have := mem_range.mp hi
        omega
      · have := mem_range.mp hi
        omega
    · rw [hzero (A.words f - 1) (by omega) (by omega), sum_eq_single j] at hsum
      · exact hsum
      · intro i hi hij
        exact hzero i (by have := mem_range.mp hi; omega) hij
      · intro hout
        exact absurd (mem_range.mpr (by omega)) hout
  rw [herror] at hnot ⊢
  exact verdict_some (by rw [frobbed_length]; omega) hnot

/-- A port request of three words, of which the second arrives altered. -/
theorem checksum_detects_request :
    Sendable ilp32 .PRT_REQ 12 ∧ ∃ e d,
      encode packed 0xBEBADBED#32 (fun _ => 0#32) ⟨3#32, fun _ => 5#32, 0⟩
        [10#32, 20#32, 0#32] 12#32 .PRT_REQ = some e ∧
      decode packed 0xBEBADBED#32 ⟨7#32, fun _ => 9#32, 0⟩ [3199917031#32, 0#32, 3199917043#32]
        e.size .PRT_SRV = some d ∧
      ∃ err, d.error = some err ∧ err.new ≠ err.old := by
  have hsend : Sendable ilp32 .PRT_REQ 12 := .inl ⟨.inl rfl, by decide⟩
  have he : encode packed 0xBEBADBED#32 (fun _ => 0#32) ⟨3#32, fun _ => 5#32, 0⟩
      [10#32, 20#32, 0#32] 12#32 .PRT_REQ =
        some ⟨[3199917031#32, 3199917049#32, 3199917043#32],
          Function.update (fun _ => 0#32) 0 (-1), 12#32⟩ := by rfl
  obtain ⟨n, d, hn, _, _, hd, _, hdetects⟩ := checksum_detects (b := 12) packed packed
    0xBEBADBED#32 _ _ ⟨7#32, fun _ => 9#32, 0⟩ (by decide) (by decide) hsend he
    [3199917031#32, 0#32, 3199917043#32] (by decide)
  subst hn
  exact ⟨hsend, _, d, he, hd, hdetects ⟨1, by decide, by decide, by decide⟩⟩

end RtaiDemos.Scrambler
