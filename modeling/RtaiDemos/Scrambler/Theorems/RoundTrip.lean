import RtaiDemos.Scrambler.Logic.Frames

/-!
# decode undoes encode

The frame is scrambled and unscrambled over the same words, and the second
checksum is taken over the words of the first.
-/

namespace RtaiDemos.Scrambler

variable {A : Abi}

/-- `decode` of a scrambled frame whose last word is the sum of the others. -/
theorem Framed.decode_frame {s : CInt A} {b : Nat} (h : Framed s b) (N : NetRpc A) (Key : Word A)
    (portslotp : PortSlot A) (w : Where) (msg : List (Word A)) (hlen : A.words b ≤ msg.length) :
    decode N Key portslotp (frobbed Key (A.words b) (summed (A.words b - 1) msg)) s w =
      (carriedSize (summed (A.words b - 1) msg) s w).bind fun size =>
        (serve N (summed (A.words b - 1) msg) w).bind fun r => some ⟨r.1, none, r.2, size⟩ := by
  have hpos := h.pos
  rw [h.decode_eq N Key portslotp w (by rw [frobbed_length, summed_length]; exact hlen),
    frobbed_frobbed Key (by rw [summed_length]; exact hlen), summed_summed,
    verdict_summed portslotp w (by omega)]

/-- `decode` of the frame of a port request or its answer. -/
theorem decode_port (N N' : NetRpc A) (Key : Word A) (funindx : CInt A → CInt A)
    (portslotp portslotp' : PortSlot A) {msg : List (Word A)} {size : CInt A} {b : Nat} {w : Where}
    (hsize : size.toInt = b) (hw : w = .PRT_REQ ∨ w = .PRT_RTR)
    (hle : 2 * A.sizeofLong ≤ b) (hlen : A.words b ≤ msg.length) :
    ∃ e, encode N Key funindx portslotp msg size w = some e ∧
      decode N' Key portslotp' e.msg e.size w.peer =
        some ⟨summed (A.words b - 1) msg, none, none, size⟩ := by
  have hframed := (sized_of_toInt hsize).framed (.inl (counts_of_toInt hsize).1) (by omega)
  refine ⟨_, hframed.encode_port N Key funindx portslotp hw hlen, ?_⟩
  rw [hframed.decode_frame N' Key portslotp' _ msg hlen]
  rcases hw with rfl | rfl
  · rfl
  · rfl

/-- `decode` of the frame of an RPC or its answer. -/
theorem decode_rpc (N N' : NetRpc A) (Key : Word A) (funindx : CInt A → CInt A)
    (portslotp portslotp' : PortSlot A) {msg : List (Word A)} {size : CInt A} {b : Nat} {w : Where}
    (hsize : size.toInt = b) (hw : w = .RPC_REQ ∨ w = .RPC_RTR)
    (hfive : 5 ≤ A.words b) (hlen : A.words b + 2 ≤ msg.length)
    (hc : A.Counts ((A.words b + 2) * A.sizeofLong)) :
    ∃ e, encode N Key funindx portslotp msg size w = some e ∧
      decode N' Key portslotp' e.msg e.size w.peer =
        (serve N' (rpcFrame size (A.words b) msg) w.peer).bind
          fun r => some ⟨r.1, none, r.2, size⟩ := by
  have hs := sized_of_toInt hsize
  have h2 := hs.frameSize hc
  obtain ⟨funindx', henc⟩ := encode_rpc hs hc N Key funindx portslotp hw hlen (by omega)
  refine ⟨_, henc, ?_⟩
  have hcarried : carriedSize (rpcFrame size (A.words b) msg) (frameSize size) w.peer =
      some size := by
    have hpeer : w.peer = .RPC_SRV ∨ w.peer = .RPC_RCV := by
      rcases hw with rfl | rfl
      · exact .inl rfl
      · exact .inr rfl
    have hget : (rpcFrame size (A.words b) msg)[A.words b]? = some (ofCInt size) := by
      rw [rpcFrame, summed, List.getElem?_set_ne (by omega), List.getElem?_set_self (by omega)]
    rw [carriedSize, if_pos hpeer, h2.length_index, hget, Option.map_some, toCInt_ofCInt]
  have hframed := h2.framed hc (Nat.le_mul_of_pos_left _ (by omega))
  have hdec := hframed.decode_frame N' Key portslotp' w.peer
    (msg.set (A.words b) (ofCInt size)) (by rw [A.words_mul, List.length_set]; exact hlen)
  rw [A.words_mul, show A.words b + 2 - 1 = A.words b + 1 from rfl] at hdec
  change decode N' Key portslotp' (frobbed Key (A.words b + 2)
    (summed (A.words b + 1) (msg.set (A.words b) (ofCInt size)))) (frameSize size) w.peer = _
  rw [hdec]
  change (carriedSize (rpcFrame size (A.words b) msg) (frameSize size) w.peer).bind _ = _
  rw [hcarried]
  rfl

/-! ## The round trip -/

/-- The frames `encode` is made for: a port frame has a word for the checksum
and one before it; an RPC has at least five words, and its buffer has room for
two more, in a number of bytes that an `int` can carry (where `int` is narrower
than `long`; otherwise there is nothing to ask). -/
def Frame (A : Abi) (w : Where) (b length : Nat) : Prop :=
  (w = .PRT_REQ ∨ w = .PRT_RTR) ∧ 2 * A.sizeofLong ≤ b ∧ A.words b ≤ length ∨
  (w = .RPC_REQ ∨ w = .RPC_RTR) ∧ 5 ≤ A.words b ∧ A.words b + 2 ≤ length ∧
    (A.intBits = A.longBits ∨ (A.words b + 2) * A.sizeofLong < 2 ^ (A.intBits - 1))

/-- What `decode` gives back at word `i` of a message of `n` words: the word
itself, but for the checksum in a port frame and the word that `decode`
rewrites for a request of another module. -/
def restored (N : NetRpc A) (w : Where) (n : Nat) (msg : List (Word A)) (i : Nat) :
    Option (Word A) :=
  if (w = .PRT_REQ ∨ w = .PRT_RTR) ∧ i + 1 = n then some (sumWords (msg.take i))
  else if w = .RPC_REQ ∧ i = 4 then
    msg[4]?.map fun x => if N.EXT x then x else N.PACKPORT (N.PORT x) 1 0 (N.TIMED x)
  else msg[i]?

/-- `decode` with the matching direction returns the byte size that `encode` was
given, prints no error, and restores the message. -/
theorem decode_encode (N N' : NetRpc A) (Key : Word A) (funindx : CInt A → CInt A)
    (portslotp portslotp' : PortSlot A) {msg : List (Word A)} {size : CInt A} {b : Nat} {w : Where}
    (hsize : size.toInt = b) (hframe : Frame A w b msg.length) :
    ∃ e d, encode N Key funindx portslotp msg size w = some e ∧
      decode N' Key portslotp' e.msg e.size w.peer = some d ∧
      d.size = size ∧ d.error = none ∧ d.msg.length = msg.length ∧
      ∀ i < A.words b, d.msg[i]? = restored N' w (A.words b) msg i := by
  rcases hframe with ⟨hw, hle, hlen⟩ | ⟨hw, hfive, hlen, hcount⟩
  · obtain ⟨e, henc, hdec⟩ :=
      decode_port N N' Key funindx portslotp portslotp' hsize hw hle hlen
    refine ⟨e, _, henc, hdec, rfl, rfl, List.length_set, ?_⟩
    intro i hi
    have hreq : w ≠ .RPC_REQ := by
      rcases hw with rfl | rfl
      · simp
      · simp
    show (summed (A.words b - 1) msg)[i]? = _
    by_cases hlast : i + 1 = A.words b
    · rw [restored, if_pos ⟨hw, hlast⟩, show A.words b - 1 = i by omega, summed,
        List.getElem?_set_self (by omega)]
    · rw [restored, if_neg (fun h => hlast h.2), if_neg (fun h => hreq h.1), summed,
        List.getElem?_set_ne (by omega)]
  · have hlt := (counts_of_toInt hsize).1
    have hc := counts_rpc hlt hcount
    obtain ⟨e, henc, hdec⟩ :=
      decode_rpc N N' Key funindx portslotp portslotp' hsize hw hfive hlen hc
    obtain ⟨r, hserve, hrlen, hr⟩ :=
      serve_eq N' w.peer (rpcFrame size (A.words b) msg) (by rw [rpcFrame_length]; omega)
    rw [hserve] at hdec
    rw [rpcFrame_length] at hrlen
    refine ⟨e, _, henc, hdec, rfl, rfl, hrlen, ?_⟩
    intro i hi
    have hport : ¬ (w = .PRT_REQ ∨ w = .PRT_RTR) := by
      rcases hw with rfl | rfl
      · simp
      · simp
    have hpeer : w.peer = .RPC_SRV ↔ w = .RPC_REQ := by
      rcases hw with rfl | rfl
      · simp [Where.peer]
      · simp [Where.peer]
    show r.1[i]? = _
    simp only [hr i, rpcFrame_getElem? size msg hi, hpeer, restored,
      rpcFrame_getElem? size msg (Nat.lt_of_lt_of_le (by decide : 4 < 5) hfive)]
    rw [if_neg (fun h : _ ∧ _ => hport h.1)]

/-- `int` and `long` of 32 bits. -/
def ilp32 : Abi := ⟨4, 32, by decide, by decide, by decide⟩

/-- Ports packed with their function in the low 12 bits. -/
def packed : NetRpc ilp32 where
  EXT i := (i >>> 12) &&& 1 != 0
  FUN i := toCInt (i &&& 0xFFF)
  PORT i := i >>> 18
  TIMED i := (i >>> 13) &&& 0x1F
  PACKPORT port ext f timed := (port <<< 18) ||| (timed <<< 13) ||| (ext <<< 12) ||| f
  funHook i := i

/-- A request of 21 bytes in six words, in a buffer of eight. -/
theorem decode_encode_request : (21#32 : CInt ilp32).toInt = 21 ∧
    ∃ e d, encode packed 0xBEBADBED#32 (fun _ => 0#32) ⟨3#32, fun _ => 5#32, 0⟩
        [10#32, 20#32, 30#32, 40#32, 0xC0005#32, 60#32, 0#32, 0#32] 21#32 .RPC_REQ = some e ∧
      decode packed 0xBEBADBED#32 ⟨7#32, fun _ => 9#32, 0⟩ e.msg e.size .RPC_SRV = some d ∧
      d.size = 21#32 ∧ d.error = none ∧ d.msg.length = 8 ∧
      ∀ i < 6, d.msg[i]? = restored packed .RPC_REQ 6
        [10#32, 20#32, 30#32, 40#32, 0xC0005#32, 60#32, 0#32, 0#32] i :=
  ⟨by decide, decode_encode (b := 21) packed packed 0xBEBADBED#32 _ _ _ (by decide)
    (.inr ⟨.inl rfl, by decide, by decide, .inl rfl⟩)⟩

end RtaiDemos.Scrambler
