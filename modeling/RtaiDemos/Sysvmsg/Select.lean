import RtaiDemos.Sysvmsg.Types

/-!
# Choosing a message (`convert_mode`, `testmsg`, the scan of `_rt_msgrcv`)
-/

namespace RtaiDemos.Sysvmsg

/-- `-x` on a `long` of `w` bits. -/
def negLong (w : Nat) (x : Int) : Int := (-x).bmod (2 ^ w)

/-- `convert_mode`: the search mode and the type it leaves in `*msgtyp`. -/
def convert_mode (w : Nat) (msgtyp : Int) (msgflg : BitVec 32) : SearchMode × Int :=
  if msgtyp = 0 then (.any, msgtyp)
  else if msgtyp < 0 then (.lessequal, negLong w msgtyp)
  else if hasFlag msgflg MSG_EXCEPT then (.notequal, msgtyp)
  else (.equal, msgtyp)

/-- `testmsg`. -/
def testmsg (msg : Msg) (type : Int) : SearchMode → Bool
  | .any => true
  | .lessequal => decide (msg.m_type ≤ type)
  | .equal => decide (msg.m_type = type)
  | .notequal => decide (msg.m_type ≠ type)

/-- The scan loop of `_rt_msgrcv`: `msgtyp` and `found_msg` are its locals;
in `SEARCH_LESSEQUAL` a hit lowers `msgtyp` and the scan goes on. -/
def scan (mode : SearchMode) : Int → Option Msg → List Msg → Option Msg
  | _, found_msg, [] => found_msg
  | msgtyp, found_msg, msg :: rest =>
    if testmsg msg msgtyp mode then
      if mode = .lessequal ∧ msg.m_type ≠ 1 then scan mode (msg.m_type - 1) (some msg) rest
      else some msg
    else scan mode msgtyp found_msg rest

/-- A receiver accepts a message of this type. -/
def MsgReceiver.accepts (r : MsgReceiver) (msg : Msg) : Bool :=
  testmsg msg r.r_msgtype r.r_mode

/-- `testmsg` looks at the type only. -/
theorem testmsg_congr {a b : Msg} (h : a.m_type = b.m_type) (type : Int) (mode : SearchMode) :
    testmsg a type mode = testmsg b type mode := by
  cases mode <;> simp [testmsg, h]

/-- Once the scan has found something it ends with something. -/
theorem scan_some_isSome (mode : SearchMode) (m : Msg) (msgs : List Msg) :
    ∀ msgtyp found, found = some m → (scan mode msgtyp found msgs).isSome := by
  induction msgs generalizing m with
  | nil => intro _ _ h; simp [scan, h]
  | cons msg rest ih =>
      intro msgtyp found h
      simp only [scan]
      split
      · split
        · exact ih msg _ _ rfl
        · rfl
      · exact ih m _ _ h

/-- The scan finds nothing exactly when no message passes `testmsg`. -/
theorem scan_none_iff (mode : SearchMode) (msgtyp : Int) (msgs : List Msg) :
    scan mode msgtyp none msgs = none ↔ ∀ m ∈ msgs, testmsg m msgtyp mode = false := by
  induction msgs with
  | nil => simp [scan]
  | cons msg rest ih =>
      simp only [scan, List.forall_mem_cons]
      by_cases ht : testmsg msg msgtyp mode
      · simp only [ht, if_true, Bool.true_eq_false, false_and, iff_false]
        split
        · intro h
          have := scan_some_isSome mode msg rest (msg.m_type - 1) _ rfl
          rw [h] at this
          exact absurd this (by simp)
        · simp
      · rw [if_neg ht, ih]
        simp [Bool.eq_false_iff.mpr ht]

/-- The message a scan ends with has no earlier message of its own type in
the list, when the message found before the scan was in a prefix `seen` that
had none of the wanted types. -/
theorem scan_first_of_type (mode : SearchMode) (rest : List Msg) :
    ∀ (msgtyp : Int) (found : Option Msg) (seen : List Msg),
    (∀ m ∈ seen, testmsg m msgtyp mode = false) →
    (∀ m, found = some m → ∃ pre post, seen = pre ++ m :: post ∧
      ∀ x ∈ pre, x.m_type ≠ m.m_type) →
    ∀ m, scan mode msgtyp found rest = some m →
      ∃ pre post, seen ++ rest = pre ++ m :: post ∧ ∀ x ∈ pre, x.m_type ≠ m.m_type := by
  induction rest with
  | nil =>
      intro msgtyp found seen _ hfound m hm
      simpa [scan] using hfound m (by simpa [scan] using hm)
  | cons msg rest ih =>
      intro msgtyp found seen hseen hfound m hm
      -- a message that passes `testmsg` has a type no message of `seen` has
      have hfresh : testmsg msg msgtyp mode = true → ∀ x ∈ seen, x.m_type ≠ msg.m_type := by
        intro ht x hx he
        have := hseen x hx
        rw [testmsg_congr he, ht] at this
        exact absurd this (by simp)
      simp only [scan] at hm
      split at hm
      · rename_i ht
        split at hm
        · rename_i hle
          have := ih (msg.m_type - 1) (some msg) (seen ++ [msg]) ?_ ?_ m hm
          · simpa using this
          · intro x hx
            rw [hle.1] at ht hseen ⊢
            simp only [testmsg, decide_eq_true_eq, decide_eq_false_iff_not] at ht hseen ⊢
            rcases List.mem_append.mp hx with hx | hx
            · have := hseen x hx
              omega
            · rw [List.mem_singleton.mp hx]
              omega
          · intro m' hm'
            cases hm'
            exact ⟨seen, [], rfl, hfresh ht⟩
        · cases hm
          exact ⟨seen, rest, rfl, hfresh ht⟩
      · rename_i ht
        have := ih msgtyp found (seen ++ [msg]) ?_ ?_ m hm
        · simpa using this
        · intro x hx
          rcases List.mem_append.mp hx with hx | hx
          · exact hseen x hx
          · rw [List.mem_singleton.mp hx]
            exact Bool.eq_false_iff.mpr ht
        · intro m' hm'
          obtain ⟨pre, post, he, hpre⟩ := hfound m' hm'
          exact ⟨pre, post ++ [msg], by simp [he], hpre⟩

/-- The message picked is the first of its type on the list. -/
theorem scan_spec {mode : SearchMode} {msgtyp : Int} {msgs : List Msg} {m : Msg}
    (h : scan mode msgtyp none msgs = some m) :
    ∃ pre post, msgs = pre ++ m :: post ∧ ∀ x ∈ pre, x.m_type ≠ m.m_type := by
  simpa using scan_first_of_type mode msgs msgtyp none [] (by simp) (by simp) m h

theorem scan_mem {mode : SearchMode} {msgtyp : Int} {msgs : List Msg} {m : Msg}
    (h : scan mode msgtyp none msgs = some m) : m ∈ msgs := by
  obtain ⟨pre, post, he, _⟩ := scan_spec h
  simp [he]

end RtaiDemos.Sysvmsg
