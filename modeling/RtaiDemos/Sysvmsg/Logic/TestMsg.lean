import RtaiDemos.Sysvmsg.TestMsg

/-!
# What the messages of the test program are

An array and its bytes; the requests, the replies and the message that ends the
game; and the boxes under the numbers of the program's queues.
-/

namespace RtaiDemos.Sysvmsg.TestMsg

/-! ## Arrays and bytes -/

theorem wordsOf_intBytes (w : Word) (l : List UInt8) :
    wordsOf (intBytes w ++ l) = w :: wordsOf l := by
  have hlt := w.isLt
  have hw : (UInt8.ofNat w.toNat).toNat + 256 * ((UInt8.ofNat (w.toNat / 256)).toNat +
      256 * ((UInt8.ofNat (w.toNat / 65536)).toNat +
        256 * (UInt8.ofNat (w.toNat / 16777216)).toNat)) = w.toNat := by
    simp only [UInt8.toNat_ofNat']
    omega
  show BitVec.ofNat 32 _ :: wordsOf l = w :: wordsOf l
  rw [hw, BitVec.ofNat_toNat, BitVec.setWidth_eq]

theorem wordsOf_bytesOf (msg : List Word) (l : List UInt8) :
    wordsOf (bytesOf msg ++ l) = msg ++ wordsOf l := by
  induction msg with
  | nil => rfl
  | cons w msg ih =>
      show wordsOf (intBytes w ++ bytesOf msg ++ l) = w :: (msg ++ wordsOf l)
      rw [List.append_assoc, wordsOf_intBytes, ih]

theorem length_bytesOf (msg : List Word) : (bytesOf msg).length = 4 * msg.length := by
  induction msg with
  | nil => rfl
  | cons w msg ih =>
      show (intBytes w ++ bytesOf msg).length = 4 * (msg.length + 1)
      rw [List.length_append, ih]
      show 4 + 4 * msg.length = 4 * (msg.length + 1)
      omega

theorem drop_bytesOf (msg : List Word) (n : Nat) :
    (bytesOf msg).drop (4 * n) = bytesOf (msg.drop n) := by
  induction n generalizing msg with
  | zero => rfl
  | succ n ih =>
      cases msg with
      | nil => simp [bytesOf]
      | cons w msg =>
          show (bytesOf msg).drop (4 * n) = bytesOf (msg.drop n)
          exact ih msg

/-- Whole ints copied to the front of an array. -/
theorem receive_bytesOf (msg front : List Word) :
    receive msg (bytesOf front) = front ++ msg.drop front.length := by
  have hrest := wordsOf_bytesOf (msg.drop front.length) []
  unfold receive
  rw [length_bytesOf, drop_bytesOf, wordsOf_bytesOf]
  rw [List.append_nil] at hrest
  rw [hrest]
  simp [wordsOf]

/-! ## Requests -/

/-- The array that client `t` sends. -/
def request (t : Nat) (draws : List Word) : List Word :=
  .ofNat 32 t :: (draws ++ [draws.foldl (· + ·) 0#32])

/-- The loop that draws the numbers and adds them up. -/
theorem fill_eq {draws pre mid : List Word} {s : Word} (hmid : mid.length = draws.length)
    (hlen : pre.length + draws.length = MAXSIZ) :
    fill pre.length draws (pre ++ mid ++ [s]) = pre ++ draws ++ [draws.foldl (· + ·) s] := by
  induction draws generalizing pre mid s with
  | nil =>
      have hnil : mid = [] := List.eq_nil_of_length_eq_zero hmid
      simp [fill, hnil]
  | cons x draws ih =>
      cases mid with
      | nil => cases hmid
      | cons y mid =>
          simp only [List.length_cons, Nat.add_right_cancel_iff] at hmid hlen
          have hset : (pre ++ y :: mid ++ [s]).set pre.length x = pre ++ [x] ++ mid ++ [s] := by
            simp
          have hlast : (pre ++ [x] ++ mid).length = MAXSIZ := by
            simp only [List.length_append, List.length_singleton]
            omega
          have hget : (pre ++ y :: mid ++ [s]).getD MAXSIZ 0 = s := by
            have hl : (pre ++ y :: mid).length = MAXSIZ := by
              simp only [List.length_append, List.length_cons]
              omega
            rw [← hl]
            simp
          have hnext : fill (pre ++ [x]).length draws (pre ++ [x] ++ mid ++ [s + x]) =
              pre ++ [x] ++ draws ++ [draws.foldl (· + ·) (s + x)] := by
            refine ih hmid ?_
            simp only [List.length_append, List.length_singleton]
            omega
          rw [fill, hset, hget, ← hlast, List.set_append_right _ _ le_rfl, Nat.sub_self,
            List.set_cons_zero]
          rw [List.length_append, List.length_singleton] at hnext
          rw [hnext]
          simp

/-- What `mfun(t)` sends is a request. -/
theorem fill_request {t : Nat} {draws msg : List Word} (hlen : msg.length = MAXSIZ + 1)
    (hfirst : msg[0]? = some (.ofNat 32 t)) (hdraws : draws.length = MAXSIZ - 1) :
    fill 1 draws (msg.set MAXSIZ 0) = request t draws := by
  obtain ⟨rest, rfl⟩ : ∃ rest, msg = BitVec.ofNat 32 t :: rest := by
    cases msg with
    | nil => cases hfirst
    | cons w rest => exact ⟨rest, by cases hfirst; rfl⟩
  have hrest : rest.length = MAXSIZ := Nat.succ.inj hlen
  obtain rfl | ⟨mid, y, rfl⟩ := List.eq_nil_or_concat rest
  · cases hrest
  rw [List.concat_eq_append] at hrest ⊢
  have hmid : mid.length = MAXSIZ - 1 := by
    rw [List.length_append, List.length_singleton] at hrest
    omega
  have hset : (BitVec.ofNat 32 t :: (mid ++ [y])).set MAXSIZ 0 =
      [BitVec.ofNat 32 t] ++ mid ++ [0] := by
    show _ :: (mid ++ [y]).set (MAXSIZ - 1) 0 = _
    rw [← hmid, List.set_append_right _ _ le_rfl, Nat.sub_self]
    rfl
  have hfill : fill [BitVec.ofNat 32 t].length draws ([BitVec.ofNat 32 t] ++ mid ++ [0]) =
      [BitVec.ofNat 32 t] ++ draws ++ [draws.foldl (· + ·) 0#32] := by
    refine fill_eq (hmid.trans hdraws.symm) ?_
    rw [hdraws]
    rfl
  rw [hset]
  rw [List.length_singleton] at hfill
  rw [hfill]
  rfl

theorem length_request {t : Nat} {draws : List Word} (hdraws : draws.length = MAXSIZ - 1) :
    (request t draws).length = MAXSIZ + 1 := by
  simp only [request, List.length_cons, List.length_append, hdraws]
  rfl

/-- The server knows every request. -/
theorem known_request {t : Nat} {draws rest : List Word} (hdraws : draws.length = MAXSIZ - 1) :
    unknownMsg (request t draws ++ rest) = false := by
  have hsplit : request t draws ++ rest =
      [BitVec.ofNat 32 t] ++ (draws ++ draws.foldl (· + ·) 0#32 :: rest) := by
    simp [request]
  have hfold := Buffer.fold_append (· + ·) (MAXSIZ - 1) [BitVec.ofNat 32 t]
    (draws ++ draws.foldl (· + ·) 0#32 :: rest) 0 (by rw [List.length_append]; omega)
  have hsum : (draws ++ draws.foldl (· + ·) 0#32 :: rest).take (MAXSIZ - 1) = draws :=
    List.take_left' hdraws
  have hlast : (request t draws ++ rest)[MAXSIZ]? = some (draws.foldl (· + ·) 0#32) := by
    rw [hsplit, List.getElem?_append_right (show 1 ≤ MAXSIZ by decide)]
    show (draws ++ _ :: rest)[MAXSIZ - 1]? = some _
    rw [← hdraws]
    simp
  unfold unknownMsg
  rw [hlast, hsplit]
  rw [List.length_singleton, hsum] at hfold
  rw [hfold]
  exact bne_self_eq_false _

/-! ## Messages -/

/-- The client that a message is from or to. -/
def ofTask (t : Nat) (m : Msg) : Bool := (wordsOf m.m_text)[0]? == some (.ofNat 32 t)

/-- The messages that may be in the queue `j` while `end` is `e`: requests in SMSG, replies
in the others, and the message that ends the game once `end` is set. -/
inductive Kind (e : Int) : Nat → Msg → Prop
  | request {m t draws} (hsize : m.m_ts = m.m_text.length) (ht : t < NTASKS)
      (hdraws : draws.length = MAXSIZ - 1) (htext : m.m_text = bytesOf (request t draws)) :
      Kind e 0 m
  | reply {m t} (hsize : m.m_ts = m.m_text.length) (ht : t < NTASKS)
      (htext : m.m_text = bytesOf [.ofNat 32 t, 0xFFFFFFFF#32]) : Kind e (t + 1) m
  | game {m i} (hsize : m.m_ts = m.m_text.length) (hi : i ≤ NTASKS) (he : (i : Int) ≤ e)
      (htext : m.m_text = gameMsg) : Kind e (boxNo i) m

theorem Kind.mono {e e' : Int} (he : e ≤ e') {j : Nat} {m : Msg} (h : Kind e j m) :
    Kind e' j m := by
  cases h with
  | request hsize ht hdraws htext => exact .request hsize ht hdraws htext
  | reply hsize ht htext => exact .reply hsize ht htext
  | game hsize hi hle htext => exact .game hsize hi (hle.trans he) htext

theorem Kind.size {e : Int} {j : Nat} {m : Msg} (h : Kind e j m) : m.m_ts = m.m_text.length := by
  cases h <;> assumption

theorem ofNat_inj {t t' : Nat} (ht : t < NTASKS) (ht' : t' < NTASKS) :
    BitVec.ofNat 32 t = BitVec.ofNat 32 t' ↔ t = t' := by
  have hn : NTASKS = 10 := rfl
  constructor
  · intro h
    have hnat := congrArg BitVec.toNat h
    simp only [BitVec.toNat_ofNat] at hnat
    omega
  · intro h
    rw [h]

/-- No client has the number that the last message begins with. -/
theorem words_gameMsg {t : Nat} (ht : t < NTASKS) (rest : List UInt8) :
    (wordsOf (gameMsg ++ rest))[0]? ≠ some (.ofNat 32 t) := by
  have hword : (wordsOf (gameMsg ++ rest))[0]? = some 0x2774656c#32 := rfl
  rw [hword]
  intro h
  have hnat := congrArg BitVec.toNat (Option.some.inj h)
  simp only [BitVec.toNat_ofNat] at hnat
  have hn : NTASKS = 10 := rfl
  omega

/-- A message that one of the program's tasks has taken from SMSG. -/
theorem Kind.taken {e : Int} {m : Msg} (h : Kind e 0 m) :
    (∃ t draws, t < NTASKS ∧ draws.length = MAXSIZ - 1 ∧
        m.m_text = bytesOf (TestMsg.request t draws)) ∨
      (NTASKS : Int) ≤ e ∧ m.m_text = gameMsg := by
  generalize hj : 0 = j at h
  cases h with
  | request _ ht hdraws htext => exact .inl ⟨_, _, ht, hdraws, htext⟩
  | reply => cases hj
  | @game m i _ hi he htext =>
      refine .inr ⟨?_, htext⟩
      unfold boxNo at hj
      split at hj
      · cases hj
      · omega

/-- A message that a client has taken from its queue. -/
theorem Kind.answer {e : Int} {t : Nat} {m : Msg} (h : Kind e (t + 1) m) :
    m.m_text = bytesOf [.ofNat 32 t, 0xFFFFFFFF#32] ∨ (t : Int) ≤ e ∧ m.m_text = gameMsg := by
  generalize hj : t + 1 = j at h
  cases h with
  | request => cases hj
  | @reply m t' _ _ htext =>
      cases Nat.succ.inj hj
      exact .inl htext
  | @game m i _ _ he htext =>
      refine .inr ⟨?_, htext⟩
      unfold boxNo at hj
      split at hj
      · cases Nat.succ.inj hj
        exact he
      · cases hj

theorem ofTask_request {m : Msg} {t t' : Nat} {draws : List Word} (ht : t < NTASKS)
    (ht' : t' < NTASKS) (htext : m.m_text = bytesOf (request t draws)) :
    ofTask t' m = true ↔ t' = t := by
  have hwords := wordsOf_bytesOf (request t draws) []
  rw [List.append_nil] at hwords
  unfold ofTask
  rw [htext, hwords, beq_iff_eq]
  show some (BitVec.ofNat 32 t) = some _ ↔ _
  rw [Option.some.injEq, ofNat_inj ht ht', eq_comm]

theorem ofTask_reply {m : Msg} {t t' : Nat} (ht : t < NTASKS) (ht' : t' < NTASKS)
    (htext : m.m_text = bytesOf [.ofNat 32 t, 0xFFFFFFFF#32]) : ofTask t' m = true ↔ t' = t := by
  have hwords := wordsOf_bytesOf [BitVec.ofNat 32 t, 0xFFFFFFFF#32] []
  rw [List.append_nil] at hwords
  unfold ofTask
  rw [htext, hwords, beq_iff_eq]
  show some (BitVec.ofNat 32 t) = some _ ↔ _
  rw [Option.some.injEq, ofNat_inj ht ht', eq_comm]

theorem ofTask_game {m : Msg} {t : Nat} (ht : t < NTASKS) (htext : m.m_text = gameMsg) :
    ofTask t m = false := by
  have hwords := words_gameMsg ht []
  rw [List.append_nil] at hwords
  unfold ofTask
  rw [htext]
  exact beq_eq_false_iff_ne.mpr hwords

/-! ## The boxes by their numbers -/

/-- The messages in the queue `j` of the program. -/
def boxAt (ids : List Int) (B : Boxes) (j : Nat) : List Msg :=
  match ids[j]? with
  | some (.ofNat id) => (B id).elim [] (·.messages)
  | _ => []

/-- Different queues have different identifiers. -/
def Distinct (ids : List Int) : Prop :=
  ∀ (i j id : Nat), ids[i]? = some (id : Int) → ids[j]? = some (id : Int) → i = j

variable {ids : List Int} {B B' : Boxes} {id j : Nat} {b : MsgBox} {msgs : List Msg}

theorem boxAt_eq (hj : ids[j]? = some (id : Int)) (hb : B id = some b) :
    boxAt ids B j = b.messages := by
  simp [boxAt, hj, hb]

/-- New contents for one queue. -/
theorem boxAt_update (hids : Distinct ids) (hj : ids[j]? = some (id : Int)) (i : Nat) :
    boxAt ids (Function.update B id (some { b with messages := msgs })) i =
      if i = j then msgs else boxAt ids B i := by
  unfold boxAt
  split
  · rename_i id' hi
    by_cases hij : i = j
    · subst hij
      have hid : id' = id := by
        rw [hj] at hi
        exact (Int.ofNat.inj (Option.some.inj hi)).symm
      simp [hid]
    · have hid : id' ≠ id := by
        intro he
        subst he
        exact hij (hids i j id' hi hj)
      simp [hid, hij]
  · rename_i hi
    have hij : i ≠ j := by
      intro he
      subst he
      exact hi id hj
    simp [hij]

theorem boxAt_remove (ids : List Int) (B : Boxes) (id i : Nat) :
    boxAt ids (Function.update B id none) i = boxAt ids B i ∨
      boxAt ids (Function.update B id none) i = [] := by
  unfold boxAt
  split
  · rename_i id' _
    by_cases hid : id' = id
    · exact .inr (by simp [hid])
    · exact .inl (by simp [hid])
  · exact .inl rfl

/-- A queue under an identifier that is not yet known. -/
theorem boxAt_create (hnew : (id : Int) ∉ ids) (b' : Option MsgBox) (i : Nat) :
    boxAt ids (Function.update B id b') i = boxAt ids B i := by
  unfold boxAt
  split
  · rename_i id' hi
    have hid : id' ≠ id := by
      intro he
      subst he
      exact hnew (List.mem_of_getElem? hi)
    simp [hid]
  · rfl

/-- A queue that is new is empty, and one that could not be created holds nothing. -/
theorem boxAt_concat {v : Int} (hv : ∀ id : Nat, v = (id : Int) → ∃ key, B id = some ⟨key, []⟩)
    (i : Nat) : boxAt (ids ++ [v]) B i = boxAt ids B i := by
  unfold boxAt
  rcases Nat.lt_trichotomy i ids.length with hlt | heq | hgt
  · rw [List.getElem?_append_left hlt]
  · have hend : ids[i]? = none := List.getElem?_eq_none heq.ge
    rw [hend, heq, List.getElem?_concat_length]
    cases v with
    | ofNat id =>
        obtain ⟨key, hb⟩ := hv id rfl
        simp [hb]
    | negSucc n => rfl
  · have hend : ids[i]? = none := List.getElem?_eq_none hgt.le
    have hend' : (ids ++ [v])[i]? = none := List.getElem?_eq_none (by simp; omega)
    rw [hend, hend']

theorem distinct_concat {v : Int} (h : Distinct ids)
    (hv : ∀ id : Nat, v = (id : Int) → (id : Int) ∉ ids) : Distinct (ids ++ [v]) := by
  intro i j id hi hj
  rw [List.getElem?_append] at hi hj
  have hmem : ∀ {i : Nat}, ids[i]? = some (id : Int) → (id : Int) ∈ ids := List.mem_of_getElem?
  have hlast : ∀ {i : Nat}, ¬ i < ids.length →
      [v][i - ids.length]? = some (id : Int) → i = ids.length ∧ v = (id : Int) := by
    intro i hge hi
    rw [List.getElem?_singleton] at hi
    split at hi
    · cases hi
      exact ⟨by omega, rfl⟩
    · cases hi
  split at hi <;> split at hj
  · exact h i j id hi hj
  · exact absurd (hmem hi) (hv id (hlast ‹_› hj).2)
  · exact absurd (hmem hj) (hv id (hlast ‹_› hi).2)
  · exact (hlast ‹_› hi).1.trans (hlast ‹_› hj).1.symm

end RtaiDemos.Sysvmsg.TestMsg
