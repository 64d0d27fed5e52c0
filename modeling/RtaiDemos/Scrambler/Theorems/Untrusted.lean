import RtaiDemos.Scrambler.Theorems.Detection

/-!
# decode of untrusted frames

`decode` derives all positions from the received size and takes the size it returns
from the frame; it checks neither, and the error paths that could are commented out
in the source. Here a frame is the words that arrived and no others, so that an access
to any other word is `none`: that decides which sizes are safe, and what is returned.
-/

namespace RtaiDemos.Scrambler

variable {A : Abi}

/-- The messages that are received. -/
def Where.received (w : Where) : Prop :=
  w = .PRT_SRV ∨ w = .PRT_RCV ∨ w = .RPC_SRV ∨ w = .RPC_RCV

/-- What `decode` takes for granted: a word with the checksum, before it in an RPC one
with the length, and in a request the port at word 4. -/
structure Sufficient (A : Abi) (w : Where) (b : Nat) : Prop where
  checksum : 1 ≤ b
  length : w = .RPC_SRV ∨ w = .RPC_RCV → 2 * A.sizeofLong ≤ b
  port : w = .RPC_SRV → 5 ≤ A.words b

/-- Nothing at all is summed up without end. -/
theorem decode_nothing (N : NetRpc A) (Key : Word A) (portslotp : PortSlot A) {size : CInt A}
    (w : Where) (hlong : A.sizeofLong ≤ 2 ^ (A.intBits - 1)) (hsize : size.toInt = (0 : Nat)) :
    decode N Key portslotp [] size w = none := by
  have hlong4 := A.long_ge
  have hs := sized_of_toInt hsize
  have hpows : A.sizeofLong < 2 ^ A.longBits := by
    have h8 := A.eight_le
    have hpow := A.half_long
    omega
  have hwords : A.words 0 = 0 := Nat.div_eq_of_lt (by omega)
  have hone : (1 : Word A).toNat = 1 := by
    show 1 % 2 ^ A.longBits = 1
    exact Nat.mod_eq_of_lt (by omega)
  have hcount : 0 < (XTOLONGSIZE (toCInt (ofCInt size - sizeofLong))).toNat := by
    rw [hs.xtolongsize_sub (by omega) hlong, BitVec.toNat_udiv, sizeofLong_toNat]
    refine Nat.div_pos ?_ (by omega)
    rw [BitVec.toNat_sub, BitVec.toNat_ofNat, hone, Nat.zero_mod, Nat.add_zero, Nat.mod_eq_of_lt (by omega)]
    omega
  have hchk : chksum ([] : List (Word A)) (toCInt (ofCInt size - sizeofLong)) true = none := by
    rw [Option.eq_none_iff_forall_ne_some]
    intro r hr
    have hlt := lt_of_chksum rfl hr
    rw [List.length_nil] at hlt
    omega
  unfold decode
  rw [hs.memfrob_eq Key [] (by rw [hwords]; exact Nat.le_refl 0), hwords]
  simp only [Option.bind_eq_bind, Option.bind_some, frobbed, List.take_nil, List.map_nil,
    List.drop_nil, List.append_nil, hchk, Option.bind_none]

/-- Where `decode` looks for the length of an RPC. -/
theorem length_position {s : CInt A} {b : Nat} (hs : Sized s b) :
    (ofCInt s / sizeofLong - 2).toNat =
      if 2 * A.sizeofLong ≤ b then b / A.sizeofLong - 2
      else 2 ^ A.longBits - (2 - b / A.sizeofLong) := by
  have hlong := A.long_ge
  have hdiv : (ofCInt s / sizeofLong).toNat = b / A.sizeofLong := by
    rw [BitVec.toNat_udiv, hs.carries, sizeofLong_toNat]
  have hpow : 32 ≤ 2 ^ A.longBits := by
    have h8 := A.eight_le
    have hhalf := A.half_long
    omega
  have hle : 2 * A.sizeofLong ≤ b ↔ 2 ≤ b / A.sizeofLong := by
    rw [Nat.le_div_iff_mul_le (by omega)]
  have hlt : b / A.sizeofLong < 2 ^ A.longBits := by
    rw [← hdiv]
    exact (ofCInt s / sizeofLong).isLt
  have htwo : (2 : Word A).toNat = 2 := by
    show 2 % 2 ^ A.longBits = 2
    exact Nat.mod_eq_of_lt (by omega)
  rw [BitVec.toNat_sub, hdiv, htwo]
  split
  · rename_i h
    rw [hle] at h
    rw [show 2 ^ A.longBits - 2 + b / A.sizeofLong = b / A.sizeofLong - 2 + 2 ^ A.longBits by omega,
      Nat.add_mod_right, Nat.mod_eq_of_lt (by omega)]
  · rename_i h
    rw [hle] at h
    rw [Nat.mod_eq_of_lt (by omega)]
    omega

/-- The frame as `decode` leaves it, but for the port. -/
def opened (Key : Word A) (b : Nat) (msg : List (Word A)) : List (Word A) :=
  summed (A.words b - 1) (frobbed Key (A.words b) msg)

theorem opened_length (Key : Word A) (b : Nat) (msg : List (Word A)) :
    (opened Key b msg).length = msg.length := by
  rw [opened, summed_length, frobbed_length]

/-- The size that an RPC carries, if the frame is long enough to have one. -/
theorem carriedSize_rpc (Key : Word A) {s : CInt A} {b : Nat} (h : Framed s b)
    {msg : List (Word A)} (hmsg : msg.length = A.words b) {w : Where}
    (hw : w = .RPC_SRV ∨ w = .RPC_RCV) :
    carriedSize (opened Key b msg) s w =
      if 2 * A.sizeofLong ≤ b then some (toCInt (plain Key msg (b / A.sizeofLong - 2))) else none := by
  have hlong := A.long_ge
  rw [carriedSize, if_pos hw, length_position h.sized]
  by_cases hle : 2 * A.sizeofLong ≤ b
  · have hdiv : b / A.sizeofLong ≤ A.words b := Nat.div_le_div_right (by omega)
    have htwo : 2 ≤ b / A.sizeofLong := by
      rw [Nat.le_div_iff_mul_le (by omega)]
      exact hle
    rw [if_pos hle, if_pos hle, opened, summed, List.getElem?_set_ne (by omega),
      frobbed_getElem? Key (by omega) (Nat.le_of_eq hmsg.symm)]
    rfl
  · have hcounter := h.sized.counter
    have hint := A.half_int_le
    have hpow := A.half_long
    have h8 := A.eight_le
    have hfar : A.words b ≤ 2 ^ A.longBits - (2 - b / A.sizeofLong) := by
      generalize b / A.sizeofLong = q
      omega
    rw [if_neg hle, if_neg hle, List.getElem?_eq_none (by rw [opened_length, hmsg]; exact hfar)]
    rfl

theorem serve_request_none (N : NetRpc A) {msg : List (Word A)} (h : msg.length < 5) :
    serve N msg .RPC_SRV = none := by
  unfold serve
  rw [List.getElem?_eq_none (by omega)]
  rfl

section Outcome

variable {α : Type} {x : Option α} {P : Prop} {Q : α → Prop}

theorem some_spec {a : α} (hx : x = some a) (hP : P) (hQ : Q a) :
    (x.isSome = true ↔ P) ∧ ∀ d, x = some d → Q d := by
  subst hx
  refine ⟨iff_of_true rfl hP, ?_⟩
  rintro _ ⟨⟩
  exact hQ

theorem none_spec (hx : x = none) (hP : ¬ P) : (x.isSome = true ↔ P) ∧ ∀ d, x = some d → Q d := by
  subst hx
  exact ⟨iff_of_false Bool.false_ne_true hP, nofun⟩

end Outcome

/-- **decode and untrusted frames.** It stays within the frame if and only if the frame
is long enough for what its kind of message holds. It then returns the received size
of a port message, and for an RPC whatever the length word says. -/
theorem decode_untrusted (hlong : A.sizeofLong ≤ 2 ^ (A.intBits - 1)) (N : NetRpc A) (Key : Word A)
    (portslotp : PortSlot A) {size : CInt A} {b : Nat} (hsize : size.toInt = b)
    {msg : List (Word A)} (hmsg : msg.length = A.words b) {w : Where} (hw : w.received) :
    ((decode N Key portslotp msg size w).isSome = true ↔ Sufficient A w b) ∧
    ∀ d, decode N Key portslotp msg size w = some d →
      d.msg.length = msg.length ∧
      (w = .PRT_SRV ∨ w = .PRT_RCV → d.size = size) ∧
      (w = .RPC_SRV ∨ w = .RPC_RCV →
        d.size = toCInt (plain Key msg (b / A.sizeofLong - 2))) := by
  rcases Nat.eq_zero_or_pos b with rfl | hb
  · have hlong4 := A.long_ge
    have hnil : msg = [] := by
      rw [← List.length_eq_zero_iff, hmsg]
      exact Nat.div_eq_of_lt (by omega)
    rw [hnil]
    exact none_spec (decode_nothing N Key portslotp w hlong hsize)
      fun h => absurd h.checksum (by omega)
  · have hs := sized_of_toInt hsize
    have hframed := hs.framed_of_pos (.inl (counts_of_toInt hsize).1) hlong hb
    have hlen := opened_length Key b msg
    rw [hframed.decode_eq N Key portslotp w (Nat.le_of_eq hmsg.symm), ← opened]
    rcases hw with rfl | rfl | rfl | rfl
    · exact some_spec rfl ⟨hb, by simp, by simp⟩ ⟨hlen, fun _ => rfl, by simp⟩
    · exact some_spec rfl ⟨hb, by simp, by simp⟩ ⟨hlen, fun _ => rfl, by simp⟩
    · rw [carriedSize_rpc Key hframed hmsg (.inl rfl)]
      by_cases hlength : 2 * A.sizeofLong ≤ b
      · rw [if_pos hlength]
        by_cases hport : 5 ≤ A.words b
        · obtain ⟨r, hr, hrlen, _⟩ := serve_eq N .RPC_SRV (opened Key b msg) (by omega)
          rw [hr]
          exact some_spec rfl ⟨hb, fun _ => hlength, fun _ => hport⟩
            ⟨hrlen.trans hlen, by simp, fun _ => rfl⟩
        · rw [serve_request_none N (by omega)]
          exact none_spec rfl fun h => hport (h.port rfl)
      · rw [if_neg hlength]
        exact none_spec rfl fun h => hlength (h.length (.inl rfl))
    · rw [carriedSize_rpc Key hframed hmsg (.inr rfl)]
      by_cases hlength : 2 * A.sizeofLong ≤ b
      · rw [if_pos hlength]
        exact some_spec rfl ⟨hb, fun _ => hlength, by simp⟩ ⟨hlen, by simp, fun _ => rfl⟩
      · rw [if_neg hlength]
        exact none_spec rfl fun h => hlength (h.length (.inr rfl))

/-- A frame of five words in which the length word says 99. -/
theorem decode_untrusted_length :
    Sufficient ilp32 .RPC_RCV 20 ∧ ∃ d,
      decode packed 0#32 ⟨7#32, fun _ => 9#32, 0⟩ [1#32, 2#32, 3#32, 99#32, 5#32] 20#32 .RPC_RCV =
        some d ∧ d.size = 99#32 := by
  have hshape : Sufficient ilp32 .RPC_RCV 20 := ⟨by decide, by decide, by decide⟩
  obtain ⟨hsome, hall⟩ := decode_untrusted (A := ilp32) (b := 20) (w := .RPC_RCV) (by decide) packed
    0#32 ⟨7#32, fun _ => 9#32, 0⟩ (by decide : (20#32 : CInt ilp32).toInt = 20)
    (by rfl : [1#32, 2#32, 3#32, 99#32, 5#32].length = ilp32.words 20) (.inr (.inr (.inr rfl)))
  obtain ⟨d, hd⟩ := Option.isSome_iff_exists.mp (hsome.mpr hshape)
  exact ⟨hshape, d, hd, (hall d hd).2.2 (.inr rfl)⟩

/-- Frames without a word, or without a length or port, send `decode` outside; and it
returns 99 bytes of 20, or a negative number of them. -/
theorem decode_leaves_frame :
    decode packed 0#32 ⟨7#32, fun _ => 9#32, 0⟩ [] 0#32 .PRT_SRV = none ∧
    decode packed 0#32 ⟨7#32, fun _ => 9#32, 0⟩ [1#32] 4#32 .RPC_RCV = none ∧
    decode packed 0#32 ⟨7#32, fun _ => 9#32, 0⟩ [1#32, 2#32, 3#32, 4#32] 16#32 .RPC_SRV = none ∧
    (decode packed 0#32 ⟨7#32, fun _ => 9#32, 0⟩ [1#32, 2#32, 3#32, 99#32, 5#32] 20#32
      .RPC_RCV).map Decoded.size = some 99#32 ∧
    (decode packed 0#32 ⟨7#32, fun _ => 9#32, 0⟩ [1#32, 2#32, 3#32, -1#32, 5#32] 20#32
      .RPC_RCV).map Decoded.size = some (-1#32) :=
  ⟨rfl, rfl, rfl, rfl, rfl⟩

end RtaiDemos.Scrambler
