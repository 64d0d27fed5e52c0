import Mathlib.Data.Nat.Basic
import RtaiDemos.Scrambler.Codec

/-!
# Frames

`encode` puts the length word and the checksum at positions it computes from
the byte size of the message, `decode` computes them from the byte size of the
frame. Both are `(size + sizeof(long) - 1)/sizeof(long)` in `unsigned long`, and
no conversion on the way changes the count. So each function has a closed form
over the words of the frame.
-/

namespace RtaiDemos.Scrambler

variable {A : Abi}

/-! ## Sizes -/

/-- The number of words that `b` bytes take. -/
def Abi.words (A : Abi) (b : Nat) : Nat := (b + A.sizeofLong - 1) / A.sizeofLong

/-- An `int` that stands for `b` bytes: it gives `b` back as an `unsigned
long`, rounding it up to words does not wrap around, and an `int` can count
the words. -/
structure Sized (s : CInt A) (b : Nat) : Prop where
  carries : (ofCInt s).toNat = b
  nowrap : b + A.sizeofLong - 1 < 2 ^ A.longBits
  counter : A.words b < 2 ^ (A.intBits - 1)

/-- The byte counts an `int` can carry: the non-negative ones, and some more
where `int` is as wide as `long`. -/
def Abi.Counts (A : Abi) (b : Nat) : Prop :=
  b < 2 ^ (A.intBits - 1) ∨
    A.intBits = A.longBits ∧ b ≤ 2 ^ (A.longBits - 1) + 3 * A.sizeofLong

theorem Abi.half_long (A : Abi) : 2 ^ A.longBits = 2 * 2 ^ (A.longBits - 1) := by
  have h := A.long_ge
  rw [← Nat.pow_succ']
  congr 1
  unfold longBits
  omega

theorem Abi.half_int_le (A : Abi) : 2 ^ (A.intBits - 1) ≤ 2 ^ (A.longBits - 1) := by
  apply Nat.pow_le_pow_right (by decide)
  have h := A.int_le
  unfold longBits
  omega

theorem Abi.eight_le (A : Abi) : 8 * A.sizeofLong ≤ 2 ^ (A.longBits - 1) := by
  have h : A.longBits - 1 < 2 ^ (A.longBits - 1) := Nat.lt_two_pow_self
  have hlong := A.long_ge
  unfold longBits at h ⊢
  omega

theorem Abi.words_le (A : Abi) (b : Nat) : A.words b ≤ b := by
  have h := A.long_ge
  unfold words
  cases b with
  | zero =>
      rw [Nat.div_eq_of_lt (by omega)]
  | succ b =>
      apply Nat.div_le_of_le_mul
      have hmul : b ≤ A.sizeofLong * b := Nat.le_mul_of_pos_left b (by omega)
      rw [Nat.mul_succ]
      omega

theorem Abi.words_mul (A : Abi) (k : Nat) : A.words (k * A.sizeofLong) = k := by
  have h := A.long_ge
  unfold words
  rw [Nat.add_sub_assoc (by omega), Nat.add_comm, Nat.add_mul_div_right _ _ (by omega),
    Nat.div_eq_of_lt (by omega), Nat.zero_add]

/-- One word less in bytes is one word less. -/
theorem Abi.words_sub (A : Abi) {b : Nat} (h : A.sizeofLong ≤ b) :
    A.words (b - A.sizeofLong) = A.words b - 1 := by
  have hlong := A.long_ge
  unfold words
  have hsub := Nat.sub_mul_div (b + A.sizeofLong - 1) A.sizeofLong 1
  rw [Nat.mul_one] at hsub
  rw [← hsub]
  congr 1
  omega

/-- Rounding up adds less than a word. -/
theorem Abi.words_mul_le (A : Abi) (b : Nat) :
    A.words b * A.sizeofLong ≤ b + A.sizeofLong - 1 := by
  unfold words
  exact Nat.div_mul_le_self _ _

theorem Abi.Counts.mono {b c : Nat} (h : A.Counts b) (hle : c ≤ b) : A.Counts c := by
  rcases h with h | ⟨h, h'⟩
  · exact .inl (by omega)
  · exact .inr ⟨h, by omega⟩

theorem Abi.Counts.nowrap {b : Nat} (h : A.Counts b) : b + A.sizeofLong - 1 < 2 ^ A.longBits := by
  have hlong := A.long_ge
  have h8 := A.eight_le
  have hint := A.half_int_le
  rw [A.half_long]
  rcases h with h | ⟨_, h⟩
  · omega
  · omega

theorem Abi.Counts.counter {b : Nat} (h : A.Counts b) : A.words b < 2 ^ (A.intBits - 1) := by
  rcases h with h | ⟨hint, h⟩
  · exact Nat.lt_of_le_of_lt (A.words_le b) h
  · have hlong := A.long_ge
    have h8 := A.eight_le
    have hle : A.words b ≤ (b + A.sizeofLong - 1) / 4 := Nat.div_le_div_left A.long_ge (by decide)
    rw [hint]
    omega

/-- A word cut back to `int` keeps the byte counts an `int` can carry. -/
theorem sized_toCInt {x : Word A} {b : Nat} (hx : x.toNat = b) (hc : A.Counts b) :
    Sized (toCInt x) b := by
  refine ⟨?_, hc.nowrap, hc.counter⟩
  have hint := A.int_ge
  have hle := A.int_le
  unfold ofCInt toCInt
  rcases hc with hc | ⟨hI, _⟩
  · have hpow : 2 ^ A.intBits = 2 * 2 ^ (A.intBits - 1) := by
      rw [← Nat.pow_succ']
      congr 1
      omega
    have hnat : (x.setWidth A.intBits).toNat = b := by
      rw [BitVec.toNat_setWidth, hx]
      exact Nat.mod_eq_of_lt (by omega)
    have hmsb : (x.setWidth A.intBits).msb = false := by
      rw [BitVec.msb_eq_false_iff_two_mul_lt, hnat]
      omega
    have hlt : b < 2 ^ A.longBits := by
      rw [← hx]
      exact x.isLt
    rw [BitVec.toNat_signExtend, hmsb, BitVec.toNat_setWidth, hnat]
    simp only [Bool.false_eq_true, if_false, Nat.add_zero]
    exact Nat.mod_eq_of_lt hlt
  · rw [← hx]
    congr 1
    rw [BitVec.signExtend_eq_setWidth_of_le _ (by omega), BitVec.setWidth_setWidth_of_le _ (by omega)]
    exact BitVec.setWidth_eq x

/-- The size that a caller passes. -/
theorem counts_of_toInt {s : CInt A} {b : Nat} (h : s.toInt = b) :
    b < 2 ^ (A.intBits - 1) ∧ (ofCInt s).toNat = b := by
  have hint := A.int_ge
  have hpow : 2 ^ A.intBits = 2 * 2 ^ (A.intBits - 1) := by
    rw [← Nat.pow_succ']
    congr 1
    omega
  have hmsb : s.msb = false := by
    rw [Bool.eq_false_iff]
    intro hmsb
    have hneg := BitVec.toInt_neg_of_msb_true hmsb
    omega
  have hnat : s.toNat = b := by
    have hs := BitVec.toInt_eq_toNat_of_msb hmsb
    omega
  have hlt := BitVec.msb_eq_false_iff_two_mul_lt.mp hmsb
  refine ⟨by omega, ?_⟩
  unfold ofCInt
  rw [BitVec.signExtend_eq_setWidth_of_msb_false hmsb,
    BitVec.toNat_setWidth_of_le (by have := A.int_le; unfold Abi.longBits; omega), hnat]

/-- An RPC frame that `int` has room for, or any where `int` is as wide as `long`. -/
theorem counts_rpc {b : Nat} (hlt : b < 2 ^ (A.intBits - 1))
    (hfits : A.intBits = A.longBits ∨ (A.words b + 2) * A.sizeofLong < 2 ^ (A.intBits - 1)) :
    A.Counts ((A.words b + 2) * A.sizeofLong) := by
  rcases hfits with hI | hfits
  · have hmul := A.words_mul_le b
    rw [hI] at hlt
    refine .inr ⟨hI, ?_⟩
    rw [Nat.add_mul]
    omega
  · exact .inl hfits

theorem sized_of_toInt {s : CInt A} {b : Nat} (h : s.toInt = b) : Sized s b := by
  obtain ⟨hlt, hcarries⟩ := counts_of_toInt h
  have hc : A.Counts b := .inl hlt
  exact ⟨hcarries, hc.nowrap, hc.counter⟩

theorem sizeofLong_toNat : (sizeofLong : Word A).toNat = A.sizeofLong := by
  have h8 := A.eight_le
  have hlong := A.long_ge
  have hpow := A.half_long
  unfold sizeofLong
  rw [BitVec.toNat_ofNat]
  exact Nat.mod_eq_of_lt (by omega)

theorem Sized.xtolongsize {s : CInt A} {b : Nat} (h : Sized s b) :
    (XTOLONGSIZE s).toNat = A.words b := by
  have hlong := A.long_ge
  have hnowrap := h.nowrap
  have hof : ofCInt s = BitVec.ofNat A.longBits b := by
    rw [← h.carries, BitVec.ofNat_toNat, BitVec.setWidth_eq]
  -- the sum may wrap around to 0 before the 1 is taken off again
  have hsum : ofCInt s + sizeofLong - 1 = BitVec.ofNat A.longBits (b + A.sizeofLong - 1) := by
    have hsucc : b + A.sizeofLong = b + A.sizeofLong - 1 + 1 := by omega
    rw [hof, sizeofLong, ← BitVec.ofNat_add, hsucc, BitVec.ofNat_add, Nat.add_sub_cancel]
    exact BitVec.add_sub_cancel _ _
  unfold XTOLONGSIZE Abi.words
  rw [hsum, BitVec.toNat_udiv, sizeofLong_toNat, BitVec.toNat_ofNat, Nat.mod_eq_of_lt hnowrap]

/-- A size less one word. -/
theorem Sized.sub_word {s : CInt A} {b : Nat} (h : Sized s b) (hc : A.Counts b)
    (hle : A.sizeofLong ≤ b) : Sized (toCInt (ofCInt s - sizeofLong)) (b - A.sizeofLong) := by
  refine sized_toCInt ?_ (hc.mono (Nat.sub_le _ _))
  rw [BitVec.toNat_sub_of_le, h.carries, sizeofLong_toNat]
  rw [BitVec.le_def, h.carries, sizeofLong_toNat]
  exact hle

/-! ## Sizes below one word -/

theorem Abi.words_pred (A : Abi) {b : Nat} (h : 1 ≤ b) : A.words b - 1 = (b - 1) / A.sizeofLong := by
  have hlong := A.long_ge
  have hsplit : b + A.sizeofLong - 1 = b - 1 + A.sizeofLong := by omega
  unfold words
  rw [hsplit, Nat.add_div_right _ (by omega)]
  rfl

theorem Abi.words_pos (A : Abi) {b : Nat} (h : 1 ≤ b) : 0 < A.words b := by
  have hlong := A.long_ge
  exact Nat.div_pos (by omega) (by omega)

/-- A small negative number survives the cut to `int`. -/
theorem ofCInt_toCInt_neg {k : Nat} (hpos : 0 < k) (hk : k ≤ 2 ^ (A.intBits - 1)) :
    ofCInt (toCInt (BitVec.ofNat A.longBits (2 ^ A.longBits - k))) =
      BitVec.ofNat A.longBits (2 ^ A.longBits - k) := by
  have hint := A.int_ge
  have hle : A.intBits ≤ A.longBits := A.int_le
  have hpow : 2 ^ A.intBits = 2 * 2 ^ (A.intBits - 1) := by
    rw [← Nat.pow_succ']
    congr 1
    omega
  obtain ⟨d, hd⟩ : ∃ d, 2 ^ A.longBits = 2 ^ A.intBits * (d + 1) := by
    refine ⟨2 ^ (A.longBits - A.intBits) - 1, ?_⟩
    rw [Nat.sub_add_cancel Nat.one_le_two_pow, ← Nat.pow_add]
    congr 1
    omega
  have hcut : (2 ^ A.longBits - k) % 2 ^ A.intBits = 2 ^ A.intBits - k := by
    have hsplit : 2 ^ A.longBits - k = 2 ^ A.intBits - k + 2 ^ A.intBits * d := by
      rw [hd, Nat.mul_succ]
      omega
    rw [hsplit, Nat.add_mul_mod_self_left, Nat.mod_eq_of_lt (by omega)]
  have hpows : 2 ^ A.intBits ≤ 2 ^ A.longBits := Nat.pow_le_pow_right (by decide) hle
  have hnat : (toCInt (BitVec.ofNat A.longBits (2 ^ A.longBits - k)) : CInt A).toNat =
      2 ^ A.intBits - k := by
    unfold toCInt
    rw [BitVec.toNat_setWidth, BitVec.toNat_ofNat, Nat.mod_mod_of_dvd _ (Nat.pow_dvd_pow 2 hle), hcut]
  have hmsb : (toCInt (BitVec.ofNat A.longBits (2 ^ A.longBits - k)) : CInt A).msb = true := by
    rw [BitVec.msb_eq_true_iff_two_mul_ge, hnat]
    omega
  apply BitVec.eq_of_toNat_eq
  unfold ofCInt
  rw [BitVec.toNat_signExtend, hmsb, BitVec.toNat_setWidth, hnat, BitVec.toNat_ofNat,
    Nat.mod_eq_of_lt (by omega : 2 ^ A.intBits - k < 2 ^ A.longBits),
    Nat.mod_eq_of_lt (by omega : 2 ^ A.longBits - k < 2 ^ A.longBits), if_pos rfl]
  omega

/-- Below one word, the size less a word is negative, and rounding it up takes the word
away again. -/
theorem Sized.xtolongsize_sub {s : CInt A} {b : Nat} (h : Sized s b) (hlt : b < A.sizeofLong)
    (hlong : A.sizeofLong ≤ 2 ^ (A.intBits - 1)) :
    XTOLONGSIZE (toCInt (ofCInt s - sizeofLong)) = (BitVec.ofNat A.longBits b - 1) / sizeofLong := by
  have hpows : 2 ^ (A.intBits - 1) < 2 ^ A.longBits := by
    rw [A.half_long]
    have hle := A.half_int_le
    have hpos : 0 < 2 ^ (A.longBits - 1) := Nat.two_pow_pos _
    omega
  have hof : ofCInt s = BitVec.ofNat A.longBits b := by
    rw [← h.carries, BitVec.ofNat_toNat, BitVec.setWidth_eq]
  have hneg : ofCInt s - sizeofLong =
      BitVec.ofNat A.longBits (2 ^ A.longBits - (A.sizeofLong - b)) := by
    apply BitVec.eq_of_toNat_eq
    rw [hof, BitVec.toNat_sub, sizeofLong_toNat, BitVec.toNat_ofNat, BitVec.toNat_ofNat,
      Nat.mod_eq_of_lt (by omega : b < 2 ^ A.longBits)]
    congr 1
    omega
  have hback : BitVec.ofNat A.longBits (2 ^ A.longBits - (A.sizeofLong - b)) + sizeofLong =
      BitVec.ofNat A.longBits b := by
    unfold sizeofLong
    rw [← BitVec.ofNat_add, show 2 ^ A.longBits - (A.sizeofLong - b) + A.sizeofLong =
      2 ^ A.longBits + b by omega]
    apply BitVec.eq_of_toNat_eq
    rw [BitVec.toNat_ofNat, BitVec.toNat_ofNat, Nat.add_mod_left]
  unfold XTOLONGSIZE
  rw [hneg, ofCInt_toCInt_neg (by omega) (by omega), hback]

/-! ## The two services -/

/-- The sum of some words. -/
def sumWords (l : List (Word A)) : Word A := l.foldl (· + ·) 0

/-- The first `n` words scrambled. -/
def frobbed (Key : Word A) (n : Nat) (msg : List (Word A)) : List (Word A) :=
  (msg.take n).map (· ^^^ Key) ++ msg.drop n

/-- The checksum of the first `k` words, stored behind them. -/
def summed (k : Nat) (msg : List (Word A)) : List (Word A) := msg.set k (sumWords (msg.take k))

theorem Sized.memfrob_eq {s : CInt A} {b : Nat} (h : Sized s b) (Key : Word A)
    (msg : List (Word A)) (hlen : A.words b ≤ msg.length) :
    memfrob Key msg s = some (frobbed Key (A.words b) msg) := by
  have hcounter := h.counter
  simp only [memfrob, h.xtolongsize]
  rw [if_neg (by omega), Buffer.update_eq _ hlen]
  rfl

theorem frobbed_length (Key : Word A) (n : Nat) (msg : List (Word A)) :
    (frobbed Key n msg).length = msg.length := by
  unfold frobbed
  rw [List.length_append, List.length_map, ← List.length_append, List.take_append_drop]

theorem xor_xor (x Key : Word A) : x ^^^ Key ^^^ Key = x := by
  rw [BitVec.xor_assoc, BitVec.xor_self, BitVec.xor_zero]

/-- Scrambling twice. -/
theorem frobbed_frobbed (Key : Word A) {n : Nat} {msg : List (Word A)} (h : n ≤ msg.length) :
    frobbed Key n (frobbed Key n msg) = msg := by
  have hagain := Buffer.update_update (f := (· ^^^ Key)) (fun x => xor_xor x Key) h
  rw [Buffer.update_eq _ (by rw [← frobbed, frobbed_length]; exact h)] at hagain
  exact Option.some.inj hagain

/-- `chksum` over `k` words. -/
theorem chksum_of_count {s : CInt A} {k : Nat} (hk : (XTOLONGSIZE s).toNat = k)
    (msg : List (Word A)) (hlen : k < msg.length) (previous : Bool) :
    chksum msg s previous = some (summed k msg, if previous then msg[k]? else none,
      sumWords (msg.take k)) := by
  simp only [chksum, hk]
  rw [Buffer.fold_eq _ (Nat.le_of_lt hlen), summed]
  simp only [Option.bind_eq_bind, Option.bind_some, Buffer.store_eq hlen]
  rfl

/-- It stores the sum behind them. -/
theorem lt_of_chksum {s : CInt A} {k : Nat} (hk : (XTOLONGSIZE s).toNat = k)
    {msg : List (Word A)} {previous : Bool} {r : List (Word A) × Option (Word A) × Word A}
    (h : chksum msg s previous = some r) : k < msg.length := by
  simp only [chksum, hk, Option.bind_eq_bind] at h
  obtain ⟨sum, _, hstore⟩ := Option.bind_eq_some_iff.mp h
  obtain ⟨msg', hstored, _⟩ := Option.bind_eq_some_iff.mp hstore
  by_contra hnot
  rw [Buffer.store, if_neg hnot] at hstored
  cases hstored

theorem Sized.chksum_eq {s : CInt A} {b : Nat} (h : Sized s b) (msg : List (Word A))
    (hlen : A.words b < msg.length) (previous : Bool) :
    chksum msg s previous = some (summed (A.words b) msg,
      if previous then msg[A.words b]? else none, sumWords (msg.take (A.words b))) :=
  chksum_of_count h.xtolongsize msg hlen previous

theorem summed_take (k : Nat) (msg : List (Word A)) : (summed k msg).take k = msg.take k := by
  rw [summed, List.take_set_of_le (Nat.le_refl k)]

theorem summed_length (k : Nat) (msg : List (Word A)) : (summed k msg).length = msg.length := by
  rw [summed, List.length_set]

/-- A message with its checksum behind it has the checksum it asks for. -/
theorem summed_getElem? {k : Nat} {msg : List (Word A)} (h : k < msg.length) :
    (summed k msg)[k]? = some (sumWords ((summed k msg).take k)) := by
  rw [summed_take, summed, List.getElem?_set_self h]

theorem summed_summed (k : Nat) (msg : List (Word A)) : summed k (summed k msg) = summed k msg := by
  conv_lhs => rw [summed, summed_take]
  rw [summed, List.set_set]

/-- What `decode` prints of an unscrambled frame with `k` words before the last. -/
def verdict (portslotp : PortSlot A) (w : Where) (k : Nat) (msg : List (Word A)) :
    Option (ChecksumError A) :=
  if some (sumWords (msg.take k)) ≠ msg[k]? then
    some { indx := portslotp.indx, socket := portslotp.socket portslotp.hard, type := type w,
           new := sumWords (msg.take k), old := msg[k]?.getD 0 }
  else none

theorem verdict_summed (portslotp : PortSlot A) (w : Where) {k : Nat} {msg : List (Word A)}
    (h : k < msg.length) : verdict portslotp w k (summed k msg) = none := by
  rw [verdict, if_neg (not_not_intro (summed_getElem? h).symm)]

/-- A frame of `b` bytes, and the size of what `chksum` is asked to sum of it: all
its words but the last. -/
structure Framed (s : CInt A) (b : Nat) : Prop where
  sized : Sized s b
  pos : 0 < A.words b
  count : (XTOLONGSIZE (toCInt (ofCInt s - sizeofLong))).toNat = A.words b - 1

theorem Sized.framed {s : CInt A} {b : Nat} (h : Sized s b) (hc : A.Counts b)
    (hle : A.sizeofLong ≤ b) : Framed s b := by
  have hlong := A.long_ge
  refine ⟨h, A.words_pos (by omega), ?_⟩
  rw [(h.sub_word hc hle).xtolongsize, A.words_sub hle]

/-- A frame may be shorter than a word. -/
theorem Sized.framed_of_pos {s : CInt A} {b : Nat} (h : Sized s b) (hc : A.Counts b)
    (hlong : A.sizeofLong ≤ 2 ^ (A.intBits - 1)) (hb : 1 ≤ b) : Framed s b := by
  by_cases hle : A.sizeofLong ≤ b
  · exact h.framed hc hle
  · refine ⟨h, A.words_pos hb, ?_⟩
    have hlt : b < 2 ^ A.longBits := by
      rw [← h.carries]
      exact (ofCInt s).isLt
    have hpred : BitVec.ofNat A.longBits b - 1 = BitVec.ofNat A.longBits (b - 1) := by
      rw [show b = b - 1 + 1 by omega, BitVec.ofNat_add, Nat.add_sub_cancel]
      exact BitVec.add_sub_cancel _ _
    rw [h.xtolongsize_sub (by omega) hlong, hpred, A.words_pred hb, BitVec.toNat_udiv,
      sizeofLong_toNat, BitVec.toNat_ofNat, Nat.mod_eq_of_lt (by omega)]

/-- `decode` of a frame, whatever its words. -/
theorem Framed.decode_eq {s : CInt A} {b : Nat} (h : Framed s b) (N : NetRpc A) (Key : Word A)
    (portslotp : PortSlot A) (w : Where) {msg : List (Word A)} (hlen : A.words b ≤ msg.length) :
    decode N Key portslotp msg s w =
      (carriedSize (summed (A.words b - 1) (frobbed Key (A.words b) msg)) s w).bind fun size =>
        (serve N (summed (A.words b - 1) (frobbed Key (A.words b) msg)) w).bind fun r =>
          some ⟨r.1, verdict portslotp w (A.words b - 1) (frobbed Key (A.words b) msg), r.2, size⟩ := by
  have hpos := h.pos
  have hchk := chksum_of_count h.count (frobbed Key (A.words b) msg)
    (by rw [frobbed_length]; omega) true
  unfold decode
  rw [h.sized.memfrob_eq Key msg hlen]
  simp only [Option.bind_eq_bind, Option.bind_some, hchk]
  rfl

/-- `encode` of a port message. -/
theorem Framed.encode_port {size : CInt A} {b : Nat} (h : Framed size b) (N : NetRpc A)
    (Key : Word A) (funindx : CInt A → CInt A) (portslotp : PortSlot A) {msg : List (Word A)}
    {w : Where} (hw : w = .PRT_REQ ∨ w = .PRT_RTR) (hlen : A.words b ≤ msg.length) :
    encode N Key funindx portslotp msg size w =
      some ⟨frobbed Key (A.words b) (summed (A.words b - 1) msg), Function.update funindx 0 (-1),
        size⟩ := by
  have hpos := h.pos
  have hsum := chksum_of_count h.count msg (by omega) false
  have hfrob := h.sized.memfrob_eq Key (summed (A.words b - 1) msg) (by rw [summed_length]; exact hlen)
  unfold encode
  rw [if_pos hw, hsum]
  simp only [Option.bind_eq_bind, Option.bind_some, hfrob]
  rfl

/-! ## The two kinds of frames -/

/-- Who gets what this one sends. -/
def Where.peer : Where → Where
  | .PRT_REQ => .PRT_SRV
  | .PRT_RTR => .PRT_RCV
  | .RPC_REQ => .RPC_SRV
  | .RPC_RTR => .RPC_RCV
  | w => w

/-- The size of an RPC frame up to its length word. -/
def lengthSize (size : CInt A) : CInt A := toCInt (XTOLONGSIZE size * sizeofLong + sizeofLong)

/-- The size of an RPC frame. -/
def frameSize (size : CInt A) : CInt A := toCInt (ofCInt (lengthSize size) + sizeofLong)

theorem Sized.lengthSize {size : CInt A} {b : Nat} (hs : Sized size b)
    (hc : A.Counts ((A.words b + 2) * A.sizeofLong)) :
    Sized (lengthSize size) ((A.words b + 1) * A.sizeofLong) := by
  have hlong := A.long_ge
  have hnowrap := hc.nowrap
  have h1 : (A.words b + 1) * A.sizeofLong = A.words b * A.sizeofLong + A.sizeofLong :=
    Nat.succ_mul _ _
  have h2 : (A.words b + 2) * A.sizeofLong = (A.words b + 1) * A.sizeofLong + A.sizeofLong :=
    Nat.succ_mul _ _
  refine sized_toCInt ?_ (hc.mono (by omega))
  rw [BitVec.toNat_add, BitVec.toNat_mul, hs.xtolongsize, sizeofLong_toNat, h1, Nat.mod_add_mod]
  exact Nat.mod_eq_of_lt (by omega)

theorem Sized.frameSize {size : CInt A} {b : Nat} (hs : Sized size b)
    (hc : A.Counts ((A.words b + 2) * A.sizeofLong)) :
    Sized (frameSize size) ((A.words b + 2) * A.sizeofLong) := by
  have hlong := A.long_ge
  have hnowrap := hc.nowrap
  have h2 : (A.words b + 2) * A.sizeofLong = (A.words b + 1) * A.sizeofLong + A.sizeofLong :=
    Nat.succ_mul _ _
  refine sized_toCInt ?_ hc
  rw [BitVec.toNat_add, (hs.lengthSize hc).carries, sizeofLong_toNat, ← h2]
  exact Nat.mod_eq_of_lt (by omega)

/-- `decode` finds the length word at the last position but one. -/
theorem Sized.length_index {s : CInt A} {m : Nat} (hs : Sized s ((m + 2) * A.sizeofLong)) :
    (ofCInt s / sizeofLong - 2).toNat = m := by
  have hlong := A.long_ge
  have hdiv : (ofCInt s / sizeofLong).toNat = m + 2 := by
    rw [BitVec.toNat_udiv, hs.carries, sizeofLong_toNat, Nat.mul_div_cancel _ (by omega)]
  have htwo : (2 : Word A).toNat = 2 := by
    have h8 := A.eight_le
    have hpow := A.half_long
    show 2 % 2 ^ A.longBits = 2
    exact Nat.mod_eq_of_lt (by omega)
  rw [BitVec.toNat_sub_of_le, hdiv, htwo, Nat.add_sub_cancel]
  rw [BitVec.le_def, hdiv, htwo]
  omega

theorem toCInt_ofCInt (x : CInt A) : toCInt (ofCInt x) = x := by
  have hle : A.intBits ≤ A.longBits := A.int_le
  unfold toCInt ofCInt
  ext i hi
  simp [BitVec.getElem_signExtend, hi, Nat.lt_of_lt_of_le hi hle]

/-- The frame of an RPC: the message, its byte size, the checksum. -/
def rpcFrame (size : CInt A) (m : Nat) (msg : List (Word A)) : List (Word A) :=
  summed (m + 1) (msg.set m (ofCInt size))

theorem rpcFrame_length (size : CInt A) (m : Nat) (msg : List (Word A)) :
    (rpcFrame size m msg).length = msg.length := by
  simp [rpcFrame, summed]

/-- The words of the message are as they were. -/
theorem rpcFrame_getElem? (size : CInt A) {m i : Nat} (msg : List (Word A)) (h : i < m) :
    (rpcFrame size m msg)[i]? = msg[i]? := by
  rw [rpcFrame, summed, List.getElem?_set_ne (by omega), List.getElem?_set_ne (by omega)]

/-- `encode` of an RPC. -/
theorem encode_rpc {size : CInt A} {b : Nat} (hs : Sized size b)
    (hc : A.Counts ((A.words b + 2) * A.sizeofLong)) (N : NetRpc A) (Key : Word A)
    (funindx : CInt A → CInt A) (portslotp : PortSlot A) {msg : List (Word A)} {w : Where}
    (hw : w = .RPC_REQ ∨ w = .RPC_RTR) (hlen : A.words b + 2 ≤ msg.length)
    (hfour : 4 < msg.length) :
    ∃ funindx', encode N Key funindx portslotp msg size w =
      some ⟨frobbed Key (A.words b + 2) (rpcFrame size (A.words b) msg), funindx',
        frameSize size⟩ := by
  have h1 := hs.lengthSize hc
  have h2 := hs.frameSize hc
  have hstore : Buffer.store msg (XTOLONGSIZE size).toNat (ofCInt size) =
      some (msg.set (A.words b) (ofCInt size)) := by
    rw [hs.xtolongsize, Buffer.store_eq (by omega)]
  have hsum := h1.chksum_eq (msg.set (A.words b) (ofCInt size))
    (by rw [A.words_mul, List.length_set]; omega) false
  have hfrob := h2.memfrob_eq Key (rpcFrame size (A.words b) msg)
    (by rw [A.words_mul, rpcFrame_length]; omega)
  rw [A.words_mul] at hsum hfrob
  obtain ⟨msg4, hmsg4⟩ : ∃ msg4, (rpcFrame size (A.words b) msg)[4]? = some msg4 :=
    ⟨_, List.getElem?_eq_getElem (by rw [rpcFrame_length]; exact hfour)⟩
  have hno : ¬ (w = .PRT_REQ ∨ w = .PRT_RTR) := by
    rcases hw with rfl | rfl
    · simp
    · simp
  refine ⟨if N.EXT msg4 then funindx else Function.update funindx portslotp.indx (N.FUN msg4 + 1), ?_⟩
  unfold encode
  rw [if_neg hno, hstore]
  change (chksum _ (lengthSize size) false >>= _) = _
  rw [hsum]
  change ((rpcFrame size (A.words b) msg)[4]? >>= _) = _
  rw [hmsg4]
  change (memfrob Key (rpcFrame size (A.words b) msg) (frameSize size) >>= _) = _
  rw [hfrob]
  rfl

/-- The room that `encode` needs for a port message. -/
theorem Framed.room_port {size : CInt A} {b : Nat} (h : Framed size b) {N : NetRpc A}
    {Key : Word A} {funindx : CInt A → CInt A} {portslotp : PortSlot A} {msg : List (Word A)}
    {w : Where} (hw : w = .PRT_REQ ∨ w = .PRT_RTR) {e : Encoded A}
    (he : encode N Key funindx portslotp msg size w = some e) : A.words b ≤ msg.length := by
  unfold encode at he
  rw [if_pos hw] at he
  obtain ⟨r, hr, _⟩ := Option.bind_eq_some_iff.mp he
  have hlt := lt_of_chksum h.count hr
  omega

/-- The room that `encode` needs for an RPC. -/
theorem room_rpc {size : CInt A} {b : Nat} (hs : Sized size b)
    (hc : A.Counts ((A.words b + 2) * A.sizeofLong)) {N : NetRpc A} {Key : Word A}
    {funindx : CInt A → CInt A} {portslotp : PortSlot A} {msg : List (Word A)} {w : Where}
    (hw : w = .RPC_REQ ∨ w = .RPC_RTR) {e : Encoded A}
    (he : encode N Key funindx portslotp msg size w = some e) :
    A.words b + 2 ≤ msg.length ∧ 4 < msg.length := by
  have hno : ¬ (w = .PRT_REQ ∨ w = .PRT_RTR) := by
    rcases hw with rfl | rfl
    · simp
    · simp
  have hcount : (XTOLONGSIZE (lengthSize size)).toNat = A.words b + 1 := by
    rw [(hs.lengthSize hc).xtolongsize, A.words_mul]
  unfold encode at he
  rw [if_neg hno] at he
  obtain ⟨stored, hstored, he⟩ := Option.bind_eq_some_iff.mp he
  obtain ⟨r, hr, he⟩ := Option.bind_eq_some_iff.mp he
  obtain ⟨msg4, hmsg4, _⟩ := Option.bind_eq_some_iff.mp he
  have hlt : A.words b + 1 < stored.length := lt_of_chksum hcount hr
  have hsame : stored.length = msg.length := by
    rw [hs.xtolongsize, Buffer.store, Option.ite_none_right_eq_some] at hstored
    rw [← Option.some.inj hstored.2, List.length_set]
  have hagain : r.1 = summed (A.words b + 1) stored := by
    rw [← Option.some.inj ((chksum_of_count hcount stored hlt false).symm.trans hr)]
  obtain ⟨hfour, _⟩ := List.getElem?_eq_some_iff.mp hmsg4
  rw [hagain, summed_length] at hfour
  omega

/-- `serve` rewrites word 4 of a request at most. -/
theorem serve_eq (N : NetRpc A) (w : Where) (msg : List (Word A)) (h : 4 < msg.length) :
    ∃ r, serve N msg w = some r ∧ r.1.length = msg.length ∧ ∀ i, r.1[i]? =
      if w = .RPC_SRV ∧ i = 4 then
        msg[4]?.map fun x => if N.EXT x then x else N.PACKPORT (N.PORT x) 1 0 (N.TIMED x)
      else msg[i]? := by
  have hsome : msg[4]? = some msg[4] := List.getElem?_eq_getElem h
  by_cases hw : w = .RPC_SRV
  · subst hw
    simp only [serve, hsome, Option.bind_eq_bind, Option.bind_some, Option.map_some, true_and]
    by_cases hext : N.EXT msg[4] = true
    · refine ⟨_, if_pos hext, rfl, ?_⟩
      intro i
      split
      · rename_i hi
        rw [hi]
        exact hsome
      · rfl
    · rw [if_neg hext, Buffer.store_eq h]
      refine ⟨_, rfl, List.length_set, ?_⟩
      intro i
      split
      · rename_i hi
        rw [hi]
        exact List.getElem?_set_self h
      · rename_i hi
        exact List.getElem?_set_ne (fun h4 => hi h4.symm)
  · refine ⟨(msg, none), ?_, rfl, ?_⟩
    · cases w <;> first | rfl | exact absurd rfl hw
    · intro i
      rw [if_neg (fun h => hw h.1)]

end RtaiDemos.Scrambler
