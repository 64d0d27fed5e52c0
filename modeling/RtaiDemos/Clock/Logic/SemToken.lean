import RtaiDemos.Clock.SemCommand

/-!
# One unit between the two semaphores

`notFull`, `notEmpty`, the task that has passed a wait and not yet signalled,
and the flag `buffered` share one unit. Whoever has it may touch the buffer,
and the status that `Put` tests changes between running and stopped only in the
hands of a getter that has it. So a command that passed the test still passes
it when the getter reads it. The invariant is stated once for both devices,
with one lemma for each kind of statement.
-/

namespace RtaiDemos.Clock.Sem

variable {S C : Type}

/-! ## Who has the unit -/

/-- The putter has it, before `buffer = command` (or gives it back). -/
def PutPc.claims : PutPc C → Nat
  | .test _ | .write _ | .refuse => 1
  | _ => 0

/-- The putter has it, after `buffer = command`. -/
def PutPc.signals : PutPc C → Nat
  | .signal => 1
  | _ => 0

/-- The command that waits for the test. -/
def PutPc.asks : PutPc C → Option C
  | .wait command | .test command => some command
  | _ => none

/-- The command that passed the test and is not in the buffer. -/
def PutPc.chosen : PutPc C → List C
  | .write command => [command]
  | _ => []

/-- The getter has it, before `*command = buffer`. -/
def GetPc.picks : GetPc S C → Nat
  | .keep _ | .load _ => 1
  | _ => 0

/-- The getter has it, after `*command = buffer`. -/
def GetPc.holds : GetPc S C → Nat
  | .assign _ _ | .signal _ => 1
  | _ => 0

/-- The command that was read and not returned. -/
def GetPc.held : GetPc S C → List C
  | .assign _ command | .signal command => [command]
  | _ => []

/-- The case of the `switch` the getter is in. -/
def GetPc.branch : GetPc S C → Option S
  | .wait s | .wait_if s | .wait_timed s | .clear s | .keep s | .load s | .assign s _ | .reset s =>
    some s
  | _ => none

theorem GetPc.held_of_holds {pc : GetPc S C} (h : pc.holds = 0) : pc.held = [] := by
  cases pc <;> first | rfl | cases h

namespace State

variable (σ : State S C)

/-- The accepted commands that `Get` has returned. -/
def delivered : List C := (σ.got.filter Prod.snd).map Prod.fst

/-- The accepted command that `Get` has not returned. -/
def pending : List C :=
  σ.getter.held ++ (if σ.unread then [σ.buffer] else []) ++ σ.putter.chosen

theorem delivered_ret (c : C) (taken last : Bool) :
    (σ.ret c taken last).delivered = if taken then σ.delivered ++ [c] else σ.delivered := by
  cases taken <;> simp [delivered, ret]

end State

/-! ## The invariant -/

section

variable {accepts : S → C → Bool} {key : C → Bool}

/-- See the module header. `key` are the commands the putter uses. -/
structure Inv (accepts : S → C → Bool) (key : C → Bool) (σ : State S C) : Prop where
  token : σ.notFull + σ.putter.claims + σ.getter.holds + σ.unread.toNat = 1
  unread : σ.putter.signals + σ.notEmpty + σ.getter.picks + σ.buffered.toNat = σ.unread.toNat
  account : σ.accepted = σ.delivered ++ σ.pending
  intact : σ.overwritten = false
  asked : ∀ c, σ.putter.asks = some c → key c = true
  chosen : ∀ c, σ.putter = .write c → accepts σ.status c = true ∧ key c = true
  stored : σ.unread = true → accepts σ.status σ.buffer = true ∧ key σ.buffer = true
  branch : ∀ s, σ.getter.branch = some s → s = σ.status
  loaded : ∀ s c, σ.getter = .assign s c → accepts s c = true ∧ key c = true
  clearing : ∀ s, σ.getter = .clear s → σ.buffered = true

variable {σ σ' : State S C}

/-- The unit is with the getter. -/
theorem Inv.getter_has (h : Inv accepts key σ) (hholds : σ.getter.holds = 1) :
    σ.notFull = 0 ∧ σ.putter.claims = 0 ∧ σ.unread = false := by
  have htoken := h.token
  have hun : σ.unread.toNat = 0 := by omega
  refine ⟨by omega, by omega, ?_⟩
  cases hu : σ.unread with
  | false => rfl
  | true =>
      rw [hu] at hun
      cases hun

/-- The unit is with the putter. -/
theorem Inv.putter_has (h : Inv accepts key σ) (hclaims : σ.putter.claims = 1) :
    σ.notFull = 0 ∧ σ.getter.holds = 0 ∧ σ.unread = false := by
  have htoken := h.token
  have hun : σ.unread.toNat = 0 := by omega
  refine ⟨by omega, by omega, ?_⟩
  cases hu : σ.unread with
  | false => rfl
  | true =>
      rw [hu] at hun
      cases hun

/-! ## Put -/

theorem Inv.call (h : Inv accepts key σ) {c : C} (hidle : σ.putter = .idle) (hkey : key c = true) :
    Inv accepts key { σ with putter := .wait c } := by
  have htoken := h.token
  have hunread := h.unread
  have haccount := h.account
  rw [hidle] at htoken hunread
  unfold State.pending at haccount
  rw [hidle] at haccount
  refine ⟨htoken, hunread, haccount, h.intact, ?_, ?_, h.stored, h.branch, h.loaded, h.clearing⟩
  · intro c' hc'
    cases hc'
    exact hkey
  · intro c' hc'
    cases hc'

/-- A statement of `Put`. -/
theorem Inv.put (h : Inv accepts key σ) (hput : Put accepts σ = some σ') :
    Inv accepts key σ' := by
  have htoken := h.token
  have hunread := h.unread
  have haccount := h.account
  unfold Put at hput
  cases hpc : σ.putter with
  | idle =>
      rw [hpc] at hput
      cases hput
  | wait c =>
      have hkey := h.asked c (by rw [hpc]; rfl)
      simp only [hpc] at hput
      split at hput
      · cases hput
        unfold State.pending at haccount
        rw [hpc] at htoken hunread haccount
        refine ⟨?_, hunread, haccount, h.intact, ?_, ?_, h.stored, h.branch, h.loaded, h.clearing⟩
        · simp only [PutPc.claims] at htoken ⊢
          omega
        · intro c' hc'
          cases hc'
          exact hkey
        · intro c' hc'
          cases hc'
      · cases hput
  | test c =>
      have hkey := h.asked c (by rw [hpc]; rfl)
      obtain ⟨_, hholds, hun⟩ := h.putter_has (by rw [hpc]; rfl)
      simp only [hpc] at hput
      split at hput
      · rename_i hacc
        cases hput
        rw [hpc] at htoken hunread
        refine ⟨htoken, hunread, ?_, h.intact, ?_, ?_, h.stored, h.branch, h.loaded, h.clearing⟩
        · -- nothing else is pending while the putter has the unit
          unfold State.pending at haccount ⊢
          rw [GetPc.held_of_holds hholds, hpc, hun] at haccount
          show σ.accepted ++ [c] = σ.delivered ++ _
          rw [haccount]
          simp [GetPc.held_of_holds hholds, hun, PutPc.chosen]
        · intro c' hc'
          cases hc'
        · intro c' hc'
          cases hc'
          exact ⟨hacc, hkey⟩
      · cases hput
        unfold State.pending at haccount
        rw [hpc] at htoken hunread haccount
        refine ⟨htoken, hunread, haccount, h.intact, ?_, ?_, h.stored, h.branch, h.loaded,
          h.clearing⟩
        · intro c' hc'
          cases hc'
        · intro c' hc'
          cases hc'
  | write c =>
      obtain ⟨_, hholds, hun⟩ := h.putter_has (by rw [hpc]; rfl)
      simp only [hpc] at hput
      cases hput
      unfold State.pending at haccount
      rw [hpc, hun] at htoken hunread haccount
      refine ⟨?_, ?_, ?_, ?_, ?_, ?_, ?_, h.branch, h.loaded, h.clearing⟩
      · simp only [PutPc.claims, Bool.toNat_false, Bool.toNat_true] at htoken ⊢
        omega
      · simp only [PutPc.signals, Bool.toNat_false, Bool.toNat_true] at hunread ⊢
        omega
      · rw [haccount]
        simp [State.pending, State.delivered, PutPc.chosen]
      · simp [h.intact, hun]
      · intro c' hc'
        cases hc'
      · intro c' hc'
        cases hc'
      · intro _
        exact h.chosen c hpc
  | signal =>
      simp only [hpc] at hput
      cases hput
      unfold State.pending at haccount
      rw [hpc] at htoken hunread haccount
      refine ⟨htoken, ?_, haccount, h.intact, ?_, ?_, h.stored, h.branch, h.loaded, h.clearing⟩
      · simp only [PutPc.signals] at hunread ⊢
        omega
      · intro c' hc'
        cases hc'
      · intro c' hc'
        cases hc'
  | refuse =>
      simp only [hpc] at hput
      cases hput
      unfold State.pending at haccount
      rw [hpc] at htoken hunread haccount
      refine ⟨?_, hunread, haccount, h.intact, ?_, ?_, h.stored, h.branch, h.loaded, h.clearing⟩
      · simp only [PutPc.claims] at htoken ⊢
        omega
      · intro c' hc'
        cases hc'
      · intro c' hc'
        cases hc'

/-! ## Get -/

/-- The getter stands where it has nothing of the buffer. -/
structure GetPc.Free (pc : GetPc S C) : Prop where
  picks : pc.picks = 0
  holds : pc.holds = 0

theorem GetPc.Free.not_assign {pc : GetPc S C} (h : pc.Free) (s : S) (c : C) :
    pc ≠ .assign s c := by
  intro he
  have hholds := h.holds
  rw [he] at hholds
  cases hholds

/-- The getter moves on without the unit. -/
theorem Inv.go (h : Inv accepts key σ) (pc : GetPc S C) (hold : σ.getter.Free) (hnew : pc.Free)
    (hbranch : ∀ s, pc.branch = some s → s = σ.status)
    (hclear : ∀ s, pc = .clear s → σ.buffered = true) :
    Inv accepts key { σ with getter := pc } := by
  have htoken := h.token
  have hunread := h.unread
  have haccount := h.account
  unfold State.pending at haccount
  rw [hold.holds] at htoken
  rw [hold.picks] at hunread
  rw [GetPc.held_of_holds hold.holds] at haccount
  refine ⟨?_, ?_, ?_, h.intact, h.asked, h.chosen, h.stored, hbranch, ?_, hclear⟩
  · show _ + pc.holds + _ = 1
    rw [hnew.holds]
    exact htoken
  · show _ + pc.picks + _ = _
    rw [hnew.picks]
    exact hunread
  · unfold State.pending
    show σ.accepted = σ.delivered ++ (pc.held ++ _ ++ _)
    rw [GetPc.held_of_holds hnew.holds]
    exact haccount
  · intro s c hc
    exact absurd hc (hnew.not_assign s c)

/-- A wait on `notEmpty` takes the unit. -/
theorem Inv.take (h : Inv accepts key σ) {pc : GetPc S C} (hold : σ.getter.Free)
    (hpicks : pc.picks = 1) (hbranch : ∀ s, pc.branch = some s → s = σ.status)
    (htake : σ.take pc = some σ') : Inv accepts key σ' := by
  have htoken := h.token
  have hunread := h.unread
  have haccount := h.account
  have hholds : pc.holds = 0 := by
    cases pc <;> first | rfl | cases hpicks
  unfold State.pending at haccount
  rw [hold.holds] at htoken
  rw [hold.picks] at hunread
  rw [GetPc.held_of_holds hold.holds] at haccount
  unfold State.take at htake
  split at htake
  · cases htake
    refine ⟨?_, ?_, ?_, h.intact, h.asked, h.chosen, h.stored, hbranch, ?_, ?_⟩
    · show _ + pc.holds + _ = 1
      rw [hholds]
      exact htoken
    · show σ.putter.signals + (σ.notEmpty - 1) + pc.picks + σ.buffered.toNat = σ.unread.toNat
      rw [hpicks]
      omega
    · unfold State.pending
      show σ.accepted = σ.delivered ++ (pc.held ++ _ ++ _)
      rw [GetPc.held_of_holds hholds]
      exact haccount
    · intro s c hc
      have hc : pc = .assign s c := hc
      rw [hc] at hpicks
      cases hpicks
    · intro s hc
      have hc : pc = .clear s := hc
      rw [hc] at hpicks
      cases hpicks
  · cases htake

/-- `*command = buffer`. -/
theorem Inv.load (h : Inv accepts key σ) {s : S} (hpc : σ.getter = .load s) :
    Inv accepts key (σ.load s) := by
  have htoken := h.token
  have hunread := h.unread
  have haccount := h.account
  unfold State.pending at haccount
  rw [hpc] at htoken hunread haccount
  have hun : σ.unread = true := by
    cases hu : σ.unread with
    | true => rfl
    | false =>
        rw [hu] at hunread
        simp only [GetPc.picks, Bool.toNat_false] at hunread
        omega
  rw [hun] at htoken hunread haccount
  refine ⟨?_, ?_, ?_, h.intact, h.asked, h.chosen, ?_, ?_, ?_, ?_⟩
  · simp only [State.load, GetPc.holds, Bool.toNat_false, Bool.toNat_true] at htoken ⊢
    omega
  · simp only [State.load, GetPc.picks, Bool.toNat_false, Bool.toNat_true] at hunread ⊢
    omega
  · rw [State.load, haccount]
    simp [State.pending, State.delivered, GetPc.held]
  · intro hf
    cases hf
  · intro s' hs'
    cases hs'
    exact h.branch s (by rw [hpc]; rfl)
  · intro s' c hc
    cases hc
    have hs := h.branch s (by rw [hpc]; rfl)
    rw [hs]
    exact h.stored hun
  · intro s' hs'
    cases hs'

/-- The assignment to the status: no command waits for the old one. -/
theorem Inv.assign (h : Inv accepts key σ) {s : S} {c : C} (hpc : σ.getter = .assign s c) (s' : S) :
    Inv accepts key { σ with status := s', getter := .signal c } := by
  obtain ⟨hfull, hclaims, hun⟩ := h.getter_has (by rw [hpc]; rfl)
  have htoken := h.token
  have hunread := h.unread
  have haccount := h.account
  unfold State.pending at haccount
  rw [hpc] at htoken hunread haccount
  refine ⟨htoken, hunread, haccount, h.intact, h.asked, ?_, ?_, ?_, ?_, ?_⟩
  · intro c' hc'
    have hc' : σ.putter = .write c' := hc'
    rw [hc'] at hclaims
    cases hclaims
  · intro hf
    have hf : σ.unread = true := hf
    rw [hun] at hf
    cases hf
  · intro s'' hs''
    cases hs''
  · intro s'' c' hc'
    cases hc'
  · intro s'' hs''
    cases hs''

/-- `rt_sem_signal(notFull)` and the return. -/
theorem Inv.release (h : Inv accepts key σ) {c : C} (hpc : σ.getter = .signal c) (last : Bool) :
    Inv accepts key (σ.release c last) := by
  have hret : ∀ pc : GetPc S C, pc.Free → pc.branch = none → Inv accepts key
      { σ with notFull := σ.notFull + 1, got := σ.got ++ [(c, true)], getter := pc } := by
    intro pc hfree hnone
    have htoken := h.token
    have hunread := h.unread
    have haccount := h.account
    unfold State.pending at haccount
    rw [hpc] at htoken hunread haccount
    refine ⟨?_, ?_, ?_, h.intact, h.asked, h.chosen, h.stored, ?_, ?_, ?_⟩
    · show σ.notFull + 1 + σ.putter.claims + pc.holds + σ.unread.toNat = 1
      rw [hfree.holds]
      simp only [GetPc.holds] at htoken
      omega
    · show _ + pc.picks + _ = _
      rw [hfree.picks]
      exact hunread
    · have hheld := GetPc.held_of_holds hfree.holds
      rw [haccount, show (GetPc.signal c : GetPc S C).held = [c] from rfl]
      simp [State.delivered, State.pending, hheld]
    · intro s hs
      have hs : pc.branch = some s := hs
      rw [hnone] at hs
      cases hs
    · intro s c' hc'
      exact absurd hc' (hfree.not_assign s c')
    · intro s hs
      have hs : pc = .clear s := hs
      rw [hs] at hnone
      cases hnone
  cases last with
  | true => exact hret .ended ⟨rfl, rfl⟩ rfl
  | false => exact hret .idle ⟨rfl, rfl⟩ rfl

/-- `Get` returns without a command out of the buffer; the new status is one
that takes the same commands. -/
theorem Inv.skip (h : Inv accepts key σ) (hold : σ.getter.Free) (c : C) {s' : S}
    (hsame : ∀ c', accepts σ.status c' = accepts s' c') :
    Inv accepts key { σ.ret c false false with status := s' } := by
  have hgo := h.go .idle hold ⟨rfl, rfl⟩ (fun s hs => by cases hs) (fun s hs => by cases hs)
  refine ⟨hgo.token, hgo.unread, ?_, h.intact, h.asked, ?_, ?_, ?_, ?_, ?_⟩
  · have hdel := σ.delivered_ret c false false
    show σ.accepted = (σ.ret c false false).delivered ++ _
    rw [hdel]
    exact hgo.account
  · intro c' hc'
    rw [← hsame]
    exact h.chosen c' hc'
  · intro hun
    rw [← hsame]
    exact h.stored hun
  · intro s hs
    cases hs
  · intro s c' hc'
    cases hc'
  · intro s hs
    cases hs

/-- `buffered = TRUE`. -/
theorem Inv.keep (h : Inv accepts key σ) {s : S} (hpc : σ.getter = .keep s) :
    Inv accepts key { σ with buffered := true, getter := .reset s } := by
  have htoken := h.token
  have hunread := h.unread
  have haccount := h.account
  unfold State.pending at haccount
  rw [hpc] at htoken hunread haccount
  refine ⟨htoken, ?_, haccount, h.intact, h.asked, h.chosen, h.stored, ?_, ?_, ?_⟩
  · have hle : σ.unread.toNat ≤ 1 := Bool.toNat_le σ.unread
    simp only [GetPc.picks, Bool.toNat_true] at hunread ⊢
    omega
  · intro s' hs'
    cases hs'
    exact h.branch s (by rw [hpc]; rfl)
  · intro s' c hc
    cases hc
  · intro s' hs'
    cases hs'

/-- `buffered = FALSE`. -/
theorem Inv.clear (h : Inv accepts key σ) {s : S} (hpc : σ.getter = .clear s) :
    Inv accepts key { σ with buffered := false, getter := .load s } := by
  have hbuf := h.clearing s hpc
  have htoken := h.token
  have hunread := h.unread
  have haccount := h.account
  unfold State.pending at haccount
  rw [hpc] at htoken hunread haccount
  rw [hbuf] at hunread
  refine ⟨htoken, ?_, haccount, h.intact, h.asked, h.chosen, h.stored, ?_, ?_, ?_⟩
  · simp only [GetPc.picks, Bool.toNat_true, Bool.toNat_false] at hunread ⊢
    omega
  · intro s' hs'
    cases hs'
    exact h.branch s (by rw [hpc]; rfl)
  · intro s' c hc
    cases hc
  · intro s' hs'
    cases hs'

theorem Inv.init (s : S) (b : C) : Inv accepts key (initState s b) := by
  refine ⟨rfl, rfl, rfl, rfl, ?_, ?_, ?_, ?_, ?_, ?_⟩
  · intro c hc
    cases hc
  · intro c hc
    cases hc
  · intro hf
    cases hf
  · intro s' hs'
    cases hs'
  · intro s' c hc
    cases hc
  · intro s' hs'
    cases hs'

end

end RtaiDemos.Clock.Sem
