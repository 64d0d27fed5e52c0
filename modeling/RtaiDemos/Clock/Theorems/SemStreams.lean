import RtaiDemos.Clock.Logic.SemStep

/-!
# The command streams of the semaphore clock

Every command that passes the test of `Put` is returned by one `Get`, in order,
and what `Get` returns is in the language of the device (`command_streams`).
-/

namespace RtaiDemos.Clock.Sem

/-! ## The two functions are made of the listed steps -/

theorem CommandClock_Get_step {σ σ' : State ClockStatus ClockCommand}
    (h : CommandClock_Get σ = some σ') (hinv : Inv clock.accepts clock.key σ) :
    GetStep clock σ σ' := by
  unfold CommandClock_Get at h
  split at h
  · rename_i hpc
    have hfree : σ.getter.Free := by rw [hpc]; exact ⟨rfl, rfl⟩
    have hne : σ.getter ≠ .ended := by rw [hpc]; simp
    split at h
    · rename_i hs
      cases h
      refine .go _ hfree hne ⟨rfl, rfl⟩ (by simp) ?_ (by simp)
      intro s hs'
      cases hs'
      exact hs.symm
    · rename_i hs
      cases h
      refine .go _ hfree hne ⟨rfl, rfl⟩ (by simp) ?_ (by simp)
      intro s hs'
      cases hs'
      exact hs.symm
  · rename_i hpc
    refine .take _ (by rw [hpc]; exact ⟨rfl, rfl⟩) (by rw [hpc]; simp) rfl ?_ h
    intro s hs
    cases hs
    exact hinv.branch _ (by rw [hpc]; rfl)
  · rename_i hpc
    have hs := hinv.branch .running (by rw [hpc]; rfl)
    split at h
    · refine .take _ (by rw [hpc]; exact ⟨rfl, rfl⟩) (by rw [hpc]; simp) rfl ?_ h
      intro s hs'
      cases hs'
      exact hs
    · cases h
      have hskip : GetStep clock σ { σ.ret .R false false with status := σ.status } := by
        refine .skip .R σ.status (by rw [hpc]; exact ⟨rfl, rfl⟩) (by rw [hpc]; simp) ?_ fun _ => rfl
        rw [← hs]
        rfl
      exact hskip
  · rename_i s hpc
    cases h
    exact .load s hpc
  · rename_i c hpc
    have hs := hinv.branch .stopped (by rw [hpc]; rfl)
    cases h
    refine .assign .stopped c _ hpc ?_
    rw [← hs]
    intro hacc _
    cases c <;> first | exact .inl ⟨rfl, trivial⟩ | exact .inr ⟨by simp [clock], rfl⟩ | cases hacc
  · rename_i c hpc
    have hs := hinv.branch .running (by rw [hpc]; rfl)
    cases h
    refine .assign .running c _ hpc ?_
    rw [← hs]
    intro hacc _
    cases c <;> first | exact .inl ⟨rfl, trivial⟩ | exact .inr ⟨by simp [clock], rfl⟩ | cases hacc
  · rename_i c hpc
    cases h
    exact .release c hpc
  · cases h

theorem CommandChrono_Get_step {σ σ' : State ChronoStatus ChronoCommand} {timeout : Bool}
    (h : CommandChrono_Get σ timeout = some σ') (hinv : Inv chrono.accepts chrono.key σ) :
    GetStep chrono σ σ' := by
  unfold CommandChrono_Get at h
  split at h
  · rename_i hpc
    have hfree : σ.getter.Free := by rw [hpc]; exact ⟨rfl, rfl⟩
    have hne : σ.getter ≠ .ended := by rw [hpc]; simp
    split at h
    · rename_i hs
      cases h
      by_cases hbuf : σ.buffered = true
      · rw [if_pos hbuf]
        refine .go _ hfree hne ⟨rfl, rfl⟩ (by simp) ?_ fun _ _ => hbuf
        intro s hs'
        cases hs'
        exact hs.symm
      · rw [if_neg hbuf]
        refine .go _ hfree hne ⟨rfl, rfl⟩ (by simp) ?_ (by simp)
        intro s hs'
        cases hs'
        exact hs.symm
    · rename_i hs
      cases h
      refine .go _ hfree hne ⟨rfl, rfl⟩ (by simp) ?_ (by simp)
      intro s hs'
      cases hs'
      exact hs.symm
    · rename_i hs
      cases h
      refine .go _ hfree hne ⟨rfl, rfl⟩ (by simp) ?_ (by simp)
      intro s hs'
      cases hs'
      exact hs.symm
  · rename_i hpc
    cases h
    exact .clear _ hpc
  · rename_i hpc
    refine .take _ (by rw [hpc]; exact ⟨rfl, rfl⟩) (by rw [hpc]; simp) rfl ?_ h
    intro s hs
    cases hs
    exact hinv.branch _ (by rw [hpc]; rfl)
  · rename_i hpc
    have hs := hinv.branch .running (by rw [hpc]; rfl)
    split at h
    · refine .take _ (by rw [hpc]; exact ⟨rfl, rfl⟩) (by rw [hpc]; simp) rfl ?_ h
      intro s hs'
      cases hs'
      exact hs
    · cases h
      have hskip : GetStep chrono σ { σ.ret .C false false with status := σ.status } := by
        refine .skip .C σ.status (by rw [hpc]; exact ⟨rfl, rfl⟩) (by rw [hpc]; simp) ?_ fun _ => rfl
        rw [← hs]
        rfl
      exact hskip
  · rename_i hpc
    have hs := hinv.branch .stoppedFinal (by rw [hpc]; rfl)
    have hfree : σ.getter.Free := by rw [hpc]; exact ⟨rfl, rfl⟩
    have hne : σ.getter ≠ .ended := by rw [hpc]; simp
    split at h
    · cases h
      refine .go _ hfree hne ⟨rfl, rfl⟩ (by simp) ?_ (by simp)
      intro s hs'
      cases hs'
      exact hs
    · refine .take _ hfree hne rfl ?_ h
      intro s hs'
      cases hs'
      exact hs
  · rename_i hpc
    cases h
    exact .keep _ hpc
  · rename_i s hpc
    cases h
    exact .load s hpc
  · rename_i c hpc
    cases h
    refine .assign .stoppedInitial c _ hpc ?_
    intro hacc hkey
    cases c <;> first
      | exact .inl ⟨rfl, by simp [chrono]⟩ | exact .inr ⟨by simp [chrono], rfl⟩ | cases hacc
  · rename_i c hpc
    have hs := hinv.branch .running (by rw [hpc]; rfl)
    cases h
    refine .assign .running c _ hpc ?_
    rw [← hs]
    intro hacc hkey
    cases c <;> first
      | exact .inl ⟨rfl, by simp [chrono]⟩ | exact .inr ⟨by simp [chrono], rfl⟩ | cases hkey
  · rename_i c hpc
    cases h
    exact .release c hpc
  · rename_i hpc
    have hs := hinv.branch .stoppedFinal (by rw [hpc]; rfl)
    cases h
    refine .skip _ _ (by rw [hpc]; exact ⟨rfl, rfl⟩) (by rw [hpc]; simp) ?_ ?_
    · rw [← hs]
      rfl
    · intro c
      rw [← hs]
      rfl
  · cases h

/-! ## Where a getter can stand -/

/-- The statements of `CommandClock_Get`. -/
def clockPc : GetPc ClockStatus ClockCommand → Bool
  | .idle | .wait .stopped | .wait_if .running | .load _ | .assign _ _ | .signal _ | .ended => true
  | _ => false

/-- The statements of `CommandChrono_Get`. -/
def chronoPc : GetPc ChronoStatus ChronoCommand → Bool
  | .idle | .wait .stoppedInitial | .clear .stoppedInitial | .wait_if .running => true
  | .wait_timed .stoppedFinal | .keep .stoppedFinal | .reset .stoppedFinal => true
  | .load .stoppedInitial | .load .running => true
  | .assign .stoppedInitial _ | .assign .running _ | .signal _ | .ended => true
  | _ => false

/-- `buffered` is set between the two `Get`s that use it. -/
def Kept (σ : State ChronoStatus ChronoCommand) : Prop :=
  σ.buffered = true →
    σ.getter = .reset .stoppedFinal ∨ σ.getter = .clear .stoppedInitial ∨
      σ.getter = .idle ∧ σ.status = .stoppedInitial

/-- What holds of the clock's buffer in every run. -/
structure ClockOk (σ : State ClockStatus ClockCommand) : Prop where
  inv : Inv clock.accepts clock.key σ
  told : σ.Told clock
  pc : clockPc σ.getter = true
  buffered : σ.buffered = false

/-- What holds of the chronometer's buffer in every run. -/
structure ChronoOk (σ : State ChronoStatus ChronoCommand) : Prop where
  inv : Inv chrono.accepts chrono.key σ
  told : σ.Told chrono
  pc : chronoPc σ.getter = true
  kept : Kept σ

/-- `Put` leaves alone what `Get` works on. -/
theorem Put_frame {S C : Type} {accepts : S → C → Bool} {σ σ' : State S C}
    (h : Put accepts σ = some σ') :
    σ'.getter = σ.getter ∧ σ'.status = σ.status ∧ σ'.got = σ.got ∧ σ'.buffered = σ.buffered := by
  unfold Put at h
  split at h
  · cases h
  · split at h
    · cases h
      exact ⟨rfl, rfl, rfl, rfl⟩
    · cases h
  · split at h
    · cases h
      exact ⟨rfl, rfl, rfl, rfl⟩
    · cases h
      exact ⟨rfl, rfl, rfl, rfl⟩
  · cases h
    exact ⟨rfl, rfl, rfl, rfl⟩
  · cases h
    exact ⟨rfl, rfl, rfl, rfl⟩
  · cases h
    exact ⟨rfl, rfl, rfl, rfl⟩

theorem State.Told.congr {S C : Type} {D : Device S C} {σ σ' : State S C} (h : σ.Told D)
    (hgetter : σ'.getter = σ.getter) (hstatus : σ'.status = σ.status) (hgot : σ'.got = σ.got) :
    σ'.Told D := by
  unfold State.Told State.said at h ⊢
  rw [hgetter, hstatus, hgot]
  exact h

theorem CommandClock_Get_pc {σ σ' : State ClockStatus ClockCommand}
    (h : CommandClock_Get σ = some σ') :
    clockPc σ'.getter = true ∧ σ'.buffered = σ.buffered := by
  unfold CommandClock_Get State.take at h
  split at h
  · split at h <;> (cases h; exact ⟨rfl, rfl⟩)
  · split at h
    · cases h
      exact ⟨rfl, rfl⟩
    · cases h
  · split at h
    · cases h
      exact ⟨rfl, rfl⟩
    · cases h
      exact ⟨rfl, rfl⟩
  · cases h
    exact ⟨rfl, rfl⟩
  · cases h
    exact ⟨rfl, rfl⟩
  · cases h
    exact ⟨rfl, rfl⟩
  · rename_i c _
    cases h
    refine ⟨?_, rfl⟩
    cases c <;> rfl
  · cases h

theorem ClockOk.step {σ σ' : State ClockStatus ClockCommand} {l : Label ClockCommand}
    (h : ClockOk σ) (hstep : clockStep σ l = some σ') : ClockOk σ' := by
  cases l with
  | call c =>
      simp only [clockStep] at hstep
      split at hstep
      · rename_i hidle
        cases hstep
        exact ⟨h.inv.call hidle rfl, h.told.congr rfl rfl rfl, h.pc, h.buffered⟩
      · cases hstep
  | put =>
      have hput : Put clock.accepts σ = some σ' := hstep
      obtain ⟨hgetter, hstatus, hgot, hbuf⟩ := Put_frame hput
      refine ⟨h.inv.put hput, h.told.congr hgetter hstatus hgot, ?_, ?_⟩
      · rw [hgetter]
        exact h.pc
      · rw [hbuf]
        exact h.buffered
  | get timeout =>
      have hget : CommandClock_Get σ = some σ' := hstep
      have hs := CommandClock_Get_step hget h.inv
      obtain ⟨hpc, hbuf⟩ := CommandClock_Get_pc hget
      refine ⟨hs.inv h.inv, hs.told h.inv h.told, hpc, ?_⟩
      rw [hbuf]
      exact h.buffered

theorem CommandChrono_Get_pc {σ σ' : State ChronoStatus ChronoCommand} {timeout : Bool}
    (h : CommandChrono_Get σ timeout = some σ') (hpc : chronoPc σ.getter = true) (hkept : Kept σ) :
    chronoPc σ'.getter = true ∧ Kept σ' := by
  -- `buffered` is clear wherever the three places of `Kept` are excluded
  have hclear : ∀ pc, σ.getter = pc → pc ≠ .reset .stoppedFinal → pc ≠ .clear .stoppedInitial →
      pc ≠ .idle → σ.buffered = false := by
    intro pc hpc' h1 h2 h3
    by_contra hb
    rcases hkept (by simpa using hb) with hk | hk | ⟨hk, _⟩
    · exact h1 (hpc'.symm.trans hk)
    · exact h2 (hpc'.symm.trans hk)
    · exact h3 (hpc'.symm.trans hk)
  unfold CommandChrono_Get State.take at h
  split at h
  · rename_i hget
    split at h
    · rename_i hs
      cases h
      by_cases hbuf : σ.buffered = true
      · rw [if_pos hbuf]
        exact ⟨rfl, fun _ => .inr (.inl rfl)⟩
      · rw [if_neg hbuf]
        exact ⟨rfl, fun hb => absurd hb hbuf⟩
    · rename_i hs
      cases h
      refine ⟨rfl, ?_⟩
      intro hb
      rcases hkept hb with hk | hk | ⟨_, hk⟩
      · rw [hget] at hk
        cases hk
      · rw [hget] at hk
        cases hk
      · rw [hs] at hk
        cases hk
    · rename_i hs
      cases h
      refine ⟨rfl, ?_⟩
      intro hb
      rcases hkept hb with hk | hk | ⟨_, hk⟩
      · rw [hget] at hk
        cases hk
      · rw [hget] at hk
        cases hk
      · rw [hs] at hk
        cases hk
  · cases h
    exact ⟨rfl, fun hb => by cases hb⟩
  · rename_i hget
    have hbuf := hclear _ hget (by simp) (by simp) (by simp)
    split at h
    · cases h
      exact ⟨rfl, fun hb => by rw [hbuf] at hb; cases hb⟩
    · cases h
  · rename_i hget
    have hbuf := hclear _ hget (by simp) (by simp) (by simp)
    split at h
    · cases h
      exact ⟨rfl, fun hb => by rw [hbuf] at hb; cases hb⟩
    · cases h
      exact ⟨rfl, fun hb => by rw [State.ret, hbuf] at hb; cases hb⟩
  · split at h
    · cases h
      exact ⟨rfl, fun _ => .inl rfl⟩
    · split at h
      · rename_i hget _ _
        have hbuf := hclear _ hget (by simp) (by simp) (by simp)
        cases h
        exact ⟨rfl, fun hb => by rw [hbuf] at hb; cases hb⟩
      · cases h
  · cases h
    exact ⟨rfl, fun _ => .inl rfl⟩
  · rename_i s hget
    have hbuf := hclear _ hget (by simp) (by simp) (by simp)
    cases h
    refine ⟨?_, fun hb => by rw [State.load, hbuf] at hb; cases hb⟩
    rw [hget] at hpc
    cases s with
    | stoppedInitial => rfl
    | running => rfl
    | stoppedFinal => cases hpc
  · rename_i c hget
    have hbuf := hclear _ hget (by simp) (by simp) (by simp)
    cases h
    exact ⟨rfl, fun hb => by rw [hbuf] at hb; cases hb⟩
  · rename_i c hget
    have hbuf := hclear _ hget (by simp) (by simp) (by simp)
    cases h
    exact ⟨rfl, fun hb => by rw [hbuf] at hb; cases hb⟩
  · rename_i c hget
    have hbuf := hclear _ hget (by simp) (by simp) (by simp)
    cases h
    refine ⟨?_, fun hb => by rw [State.release, State.ret, hbuf] at hb; cases hb⟩
    cases c <;> rfl
  · cases h
    exact ⟨rfl, fun _ => .inr (.inr ⟨rfl, rfl⟩)⟩
  · cases h

theorem ChronoOk.step {σ σ' : State ChronoStatus ChronoCommand} {l : Label ChronoCommand}
    (h : ChronoOk σ) (hstep : chronoStep σ l = some σ') : ChronoOk σ' := by
  cases l with
  | call c =>
      simp only [chronoStep] at hstep
      split at hstep
      · rename_i hidle
        cases hstep
        exact ⟨h.inv.call hidle.1 hidle.2, h.told.congr rfl rfl rfl, h.pc, h.kept⟩
      · cases hstep
  | put =>
      have hput : Put chrono.accepts σ = some σ' := hstep
      obtain ⟨hgetter, hstatus, hgot, hbuf⟩ := Put_frame hput
      refine ⟨h.inv.put hput, h.told.congr hgetter hstatus hgot, ?_, ?_⟩
      · rw [hgetter]
        exact h.pc
      · unfold Kept
        rw [hgetter, hstatus, hbuf]
        exact h.kept
  | get timeout =>
      have hget : CommandChrono_Get σ timeout = some σ' := hstep
      have hs := CommandChrono_Get_step hget h.inv
      obtain ⟨hpc, hkept⟩ := CommandChrono_Get_pc hget h.pc h.kept
      exact ⟨hs.inv h.inv, hs.told h.inv h.told, hpc, hkept⟩

/-! ## Get brings a waiting command out -/

/-- How many statements of `CommandClock_Get` come before the one that returns
the command. -/
def clockTogo : GetPc ClockStatus ClockCommand → Nat
  | .signal _ => 0
  | .assign _ _ => 1
  | .load _ => 2
  | .wait _ | .wait_if _ => 3
  | _ => 4

theorem ClockOk.serve {σ σ' : State ClockStatus ClockCommand} (h : ClockOk σ) (hw : σ.Waiting)
    (hget : CommandClock_Get σ = some σ') :
    σ.accepted <+: σ'.delivered ∨ σ'.Waiting ∧ σ'.accepted = σ.accepted ∧
      clockTogo σ'.getter < clockTogo σ.getter := by
  rcases (CommandClock_Get_step hget h.inv).waiting h.inv hw with hout | ⟨hw', hacc, hdel⟩
  · exact .inl hout
  · refine .inr ⟨hw', hacc, ?_⟩
    unfold CommandClock_Get State.take at hget
    split at hget
    · rename_i hpc
      rw [hpc]
      split at hget <;> (cases hget; exact (by decide : 3 < 4))
    · rename_i hpc
      rw [hpc]
      split at hget
      · cases hget
        exact (by decide : 2 < 3)
      · cases hget
    · rename_i hpc
      have hready := h.inv.unit_ready hw (by rw [hpc]; exact ⟨rfl, rfl⟩) h.buffered
      rw [if_pos hready, if_pos hready] at hget
      rw [hpc]
      cases hget
      exact (by decide : 2 < 3)
    · rename_i s hpc
      rw [hpc]
      cases hget
      exact (by decide : 1 < 2)
    · rename_i c hpc
      rw [hpc]
      cases hget
      exact (by decide : 0 < 1)
    · rename_i c hpc
      rw [hpc]
      cases hget
      exact (by decide : 0 < 1)
    · rename_i c hpc
      -- the command has come out
      cases hget
      have hret := σ.delivered_ret c true (c == .F)
      rw [if_pos rfl] at hret
      exact absurd (hret.symm.trans hdel) (by simp)
    · cases hget

theorem ClockOk.enabled {σ : State ClockStatus ClockCommand} (h : ClockOk σ) (hw : σ.Waiting) :
    (CommandClock_Get σ).isSome = true := by
  have hpc := h.pc
  have hgoing := hw.going
  have hready := h.inv.unit_ready hw
  unfold CommandClock_Get State.take
  cases hg : σ.getter with
  | idle => cases σ.status <;> rfl
  | wait s =>
      rw [hg] at hpc hready
      have hunit := hready ⟨rfl, rfl⟩ h.buffered
      cases s with
      | stopped => simp [hunit]
      | running => cases hpc
  | wait_if s =>
      rw [hg] at hpc hready
      have hunit := hready ⟨rfl, rfl⟩ h.buffered
      cases s with
      | stopped => cases hpc
      | running => simp [hunit]
  | load s => rfl
  | assign s c => cases s <;> rfl
  | signal c => rfl
  | ended => exact absurd hg hgoing
  | wait_timed s => rw [hg] at hpc; cases hpc
  | clear s => rw [hg] at hpc; cases hpc
  | keep s => rw [hg] at hpc; cases hpc
  | reset s => rw [hg] at hpc; cases hpc

/-- How many statements of `CommandChrono_Get` come before the one that returns
the command; in the final stop there is a whole `Get` before it. -/
def chronoTogo (σ : State ChronoStatus ChronoCommand) : Nat :=
  match σ.getter with
  | .signal _ => 0
  | .assign _ _ => 1
  | .load _ => 2
  | .wait _ | .wait_if _ | .clear _ => 3
  | .idle => if σ.status = .stoppedFinal then 8 else 4
  | .reset _ => 5
  | .keep _ => 6
  | .wait_timed _ => 7
  | .ended => 0

theorem ChronoOk.buffered_clear {σ : State ChronoStatus ChronoCommand} (h : ChronoOk σ)
    (hreset : σ.getter ≠ .reset .stoppedFinal) (hclear : σ.getter ≠ .clear .stoppedInitial)
    (hidle : σ.getter ≠ .idle) : σ.buffered = false := by
  by_contra hb
  rcases h.kept (by simpa using hb) with hk | hk | ⟨hk, _⟩
  · exact hreset hk
  · exact hclear hk
  · exact hidle hk

theorem ChronoOk.serve {σ σ' : State ChronoStatus ChronoCommand} {timeout : Bool}
    (h : ChronoOk σ) (hw : σ.Waiting) (hget : CommandChrono_Get σ timeout = some σ') :
    σ.accepted <+: σ'.delivered ∨ σ'.Waiting ∧ σ'.accepted = σ.accepted ∧
      chronoTogo σ' < chronoTogo σ := by
  rcases (CommandChrono_Get_step hget h.inv).waiting h.inv hw with hout | ⟨hw', hacc, hdel⟩
  · exact .inl hout
  · refine .inr ⟨hw', hacc, ?_⟩
    unfold CommandChrono_Get State.take at hget
    unfold chronoTogo
    split at hget
    · rename_i hpc
      rw [hpc]
      split at hget
      · rename_i hs
        cases hget
        rw [hs]
        cases σ.buffered <;> exact (by decide : 3 < 4)
      · rename_i hs
        cases hget
        rw [hs]
        exact (by decide : 3 < 4)
      · rename_i hs
        cases hget
        rw [hs]
        exact (by decide : 7 < 8)
    · rename_i hpc
      rw [hpc]
      cases hget
      exact (by decide : 2 < 3)
    · rename_i hpc
      rw [hpc]
      split at hget
      · cases hget
        exact (by decide : 2 < 3)
      · cases hget
    · rename_i hpc
      have hbuf := h.buffered_clear (by rw [hpc]; simp) (by rw [hpc]; simp) (by rw [hpc]; simp)
      have hunit := h.inv.unit_ready hw (by rw [hpc]; exact ⟨rfl, rfl⟩) hbuf
      rw [if_pos hunit, if_pos hunit] at hget
      rw [hpc]
      cases hget
      exact (by decide : 2 < 3)
    · rename_i hpc
      rw [hpc]
      split at hget
      · cases hget
        exact (by decide : 5 < 7)
      · split at hget
        · cases hget
          exact (by decide : 6 < 7)
        · cases hget
    · rename_i hpc
      rw [hpc]
      cases hget
      exact (by decide : 5 < 6)
    · rename_i s hpc
      rw [hpc]
      cases hget
      exact (by decide : 1 < 2)
    · rename_i c hpc
      rw [hpc]
      cases hget
      exact (by decide : 0 < 1)
    · rename_i c hpc
      rw [hpc]
      cases hget
      exact (by decide : 0 < 1)
    · rename_i c hpc
      cases hget
      have hret := σ.delivered_ret c true (c == .F)
      rw [if_pos rfl] at hret
      exact absurd (hret.symm.trans hdel) (by simp)
    · rename_i hpc
      rw [hpc]
      cases hget
      exact (by decide : 4 < 5)
    · cases hget

theorem ChronoOk.enabled {σ : State ChronoStatus ChronoCommand} (h : ChronoOk σ) (hw : σ.Waiting) :
    (CommandChrono_Get σ true).isSome = true := by
  have hpc := h.pc
  have hready := h.inv.unit_ready hw
  have hbuf := h.buffered_clear
  unfold CommandChrono_Get State.take
  cases hg : σ.getter with
  | idle => cases σ.status <;> rfl
  | wait s =>
      rw [hg] at hpc hready hbuf
      have hunit := hready ⟨rfl, rfl⟩ (hbuf (by simp) (by simp) (by simp))
      cases s with
      | stoppedInitial => simp [hunit]
      | running => cases hpc
      | stoppedFinal => cases hpc
  | wait_if s =>
      rw [hg] at hpc hready hbuf
      have hunit := hready ⟨rfl, rfl⟩ (hbuf (by simp) (by simp) (by simp))
      cases s with
      | stoppedInitial => cases hpc
      | running => simp [hunit]
      | stoppedFinal => cases hpc
  | wait_timed s => rw [hg] at hpc; cases s <;> first | rfl | cases hpc
  | clear s => rw [hg] at hpc; cases s <;> first | rfl | cases hpc
  | keep s => rw [hg] at hpc; cases s <;> first | rfl | cases hpc
  | load s => rfl
  | assign s c => rw [hg] at hpc; cases s <;> first | rfl | cases hpc
  | signal c => rfl
  | reset s => rw [hg] at hpc; cases s <;> first | rfl | cases hpc
  | ended => exact absurd hg hw.going

/-! ## Both devices -/

/-- What holds of the system in every run. -/
structure SystemOk (σ : System) : Prop where
  clock : ClockOk σ.clock
  chrono : ChronoOk σ.chrono

/-- A step is one of a device. -/
theorem step_cases {σ σ' : System} {l : SystemLabel} (h : step σ l = some σ') :
    (∃ k d, l = .clock k ∧ clockStep σ.clock k = some d ∧ σ' = { σ with clock := d }) ∨
      ∃ k d, l = .chrono k ∧ chronoStep σ.chrono k = some d ∧ σ' = { σ with chrono := d } := by
  cases l with
  | clock k =>
      simp only [step] at h
      split at h
      · cases h
      · obtain ⟨d, hd, rfl⟩ := Option.map_eq_some_iff.mp h
        exact .inl ⟨k, d, rfl, hd, rfl⟩
  | chrono k =>
      simp only [step] at h
      split at h
      · cases h
      · obtain ⟨d, hd, rfl⟩ := Option.map_eq_some_iff.mp h
        exact .inr ⟨k, d, rfl, hd, rfl⟩

theorem SystemOk.step {σ σ' : System} {l : SystemLabel} (h : SystemOk σ)
    (hstep : step σ l = some σ') : SystemOk σ' := by
  rcases step_cases hstep with ⟨k, d, _, hd, rfl⟩ | ⟨k, d, _, hd, rfl⟩
  · exact ⟨h.clock.step hd, h.chrono⟩
  · exact ⟨h.clock, h.chrono.step hd⟩

theorem State.told_init {S C : Type} {D : Device S C} {s : S} {b : C} (h : [] ∈ D.told s) :
    (initState s b).Told D := by
  refine .inl ⟨?_, h⟩
  rintro (he | he) <;> cases he

theorem system_invariant : machine.Invariant SystemOk := by
  refine TSys.Invariant.of_inductive ?_ fun σ σ' l h hstep => h.step hstep
  rintro σ ⟨b, b', rfl⟩
  refine ⟨⟨.init _ _, State.told_init ?_, rfl, rfl⟩, ⟨.init _ _, State.told_init ?_, rfl, ?_⟩⟩
  · exact Language.append_mem_mul (Language.nil_mem_kstar clockRound)
      (Language.nil_mem_kstar clockSet)
  · exact Language.nil_mem_kstar chronoRound
  · intro hb
    cases hb

/-- A statement of `CommandClock_Get`. -/
def isClockGet : SystemLabel → Bool
  | .clock k => k.isGet
  | .chrono _ => false

/-- A statement of `CommandChrono_Get`. -/
def isChronoGet : SystemLabel → Bool
  | .clock _ => false
  | .chrono k => k.isGet

/-- What a device has delivered is never taken back. -/
theorem delivered_mono {S C : Type} [BEq C] {D : Device S C} {σ σ' : State S C}
    (h : GetStep D σ σ') : σ.delivered <+: σ'.delivered := by
  obtain ⟨_, _, ⟨hdel, _⟩ | ⟨c, hdel⟩⟩ := h.frame
  · rw [hdel]
  · rw [hdel]
    exact List.prefix_append _ _

theorem ClockOk.delivered_mono {σ σ' : State ClockStatus ClockCommand} {l : Label ClockCommand}
    (h : ClockOk σ) (hstep : clockStep σ l = some σ') : σ.delivered <+: σ'.delivered := by
  cases l with
  | call c =>
      simp only [clockStep] at hstep
      split at hstep
      · cases hstep
        exact List.prefix_refl _
      · cases hstep
  | put =>
      obtain ⟨_, _, hgot, _⟩ := Put_frame (show Put clock.accepts σ = some σ' from hstep)
      unfold State.delivered
      rw [hgot]
  | get timeout => exact Sem.delivered_mono (CommandClock_Get_step hstep h.inv)

theorem ChronoOk.delivered_mono {σ σ' : State ChronoStatus ChronoCommand} {l : Label ChronoCommand}
    (h : ChronoOk σ) (hstep : chronoStep σ l = some σ') : σ.delivered <+: σ'.delivered := by
  cases l with
  | call c =>
      simp only [chronoStep] at hstep
      split at hstep
      · cases hstep
        exact List.prefix_refl _
      · cases hstep
  | put =>
      obtain ⟨_, _, hgot, _⟩ := Put_frame (show Put chrono.accepts σ = some σ' from hstep)
      unfold State.delivered
      rw [hgot]
  | get timeout => exact Sem.delivered_mono (CommandChrono_Get_step hstep h.inv)

/-- The putter's steps while a command waits: a call at most. -/
theorem State.Waiting.call {S C : Type} {σ : State S C} (hw : σ.Waiting) (c : C) :
    ({ σ with putter := .wait c } : State S C).Waiting :=
  ⟨hw.going, rfl, rfl, hw.left⟩

/-- A waiting command of a device is returned, if the statements of its `Get`
lower a measure that no other step raises. -/
theorem serves_waiting {S C : Type} (device : System → State S C) {mine : SystemLabel → Bool}
    (togo : System → Nat)
    (hmono : ∀ σ l σ', SystemOk σ → step σ l = some σ' →
      (device σ).delivered <+: (device σ').delivered)
    (hmine : ∀ σ l σ', SystemOk σ → (device σ).Waiting → mine l = true → step σ l = some σ' →
      (device σ).accepted <+: (device σ').delivered ∨
        (device σ').Waiting ∧ (device σ').accepted = (device σ).accepted ∧ togo σ' < togo σ)
    (hother : ∀ σ l σ', SystemOk σ → (device σ).Waiting → mine l = false → step σ l = some σ' →
      (device σ').Waiting ∧ (device σ').accepted = (device σ).accepted ∧ togo σ' ≤ togo σ)
    (henabled : ∀ σ, SystemOk σ → (device σ).Waiting →
      ∃ l, mine l = true ∧ (step σ l).isSome = true)
    {σ₀ : System} {n : Nat} (h : SystemOk σ₀) (hw : (device σ₀).Waiting) (hn : togo σ₀ < n) :
    machine.Serves mine n (fun σ => (device σ₀).accepted <+: (device σ).delivered) σ₀ := by
  have hserves : machine.Serves mine n
      (fun σ => SystemOk σ ∧ (device σ₀).accepted <+: (device σ).delivered) σ₀ := by
    refine TSys.Serves.of_measure (R := fun σ => SystemOk σ ∧ (device σ).Waiting ∧
      (device σ).accepted = (device σ₀).accepted) togo ?_ ?_ ?_ ?_ ⟨h, hw, rfl⟩ hn
    · rintro σ l σ' ⟨hok, hout⟩ hstep
      exact ⟨hok.step hstep, hout.trans (hmono σ l σ' hok hstep)⟩
    · rintro σ l σ' ⟨hok, hwait, hacc⟩ hl hstep
      rcases hmine σ l σ' hok hwait hl hstep with hout | ⟨hwait', hacc', hlt⟩
      · rw [hacc] at hout
        exact .inl ⟨hok.step hstep, hout⟩
      · exact .inr ⟨⟨hok.step hstep, hwait', hacc'.trans hacc⟩, hlt⟩
    · rintro σ l σ' ⟨hok, hwait, hacc⟩ hl hstep
      obtain ⟨hwait', hacc', hle⟩ := hother σ l σ' hok hwait hl hstep
      exact ⟨⟨hok.step hstep, hwait', hacc'.trans hacc⟩, hle⟩
    · rintro σ ⟨hok, hwait, _⟩
      exact henabled σ hok hwait
  exact hserves.mono fun σ hσ => hσ.2

/-- Every accepted command is returned, if the clock task goes on. -/
theorem clock_serves {σ₀ : System} (h : SystemOk σ₀) (hw : σ₀.clock.Waiting) :
    machine.Serves isClockGet 5 (fun σ => σ₀.clock.accepted <+: σ.clock.delivered) σ₀ := by
  refine serves_waiting System.clock (fun σ => clockTogo σ.clock.getter) ?_ ?_ ?_ ?_ h hw ?_
  · intro σ l σ' hok hstep
    rcases step_cases hstep with ⟨k, d, _, hd, rfl⟩ | ⟨k, d, _, hd, rfl⟩
    · exact hok.clock.delivered_mono hd
    · exact List.prefix_refl _
  · intro σ l σ' hok hwait hmine hstep
    rcases step_cases hstep with ⟨k, d, rfl, hd, rfl⟩ | ⟨k, d, rfl, hd, rfl⟩
    · cases k with
      | get timeout => exact hok.clock.serve hwait hd
      | call c => cases hmine
      | put => cases hmine
    · cases hmine
  · intro σ l σ' hok hwait hmine hstep
    rcases step_cases hstep with ⟨k, d, rfl, hd, rfl⟩ | ⟨k, d, rfl, hd, rfl⟩
    · cases k with
      | get timeout => cases hmine
      | call c =>
          simp only [clockStep] at hd
          split at hd
          · cases hd
            exact ⟨hwait.call c, rfl, Nat.le_refl _⟩
          · cases hd
      | put =>
          have hnone := hok.clock.inv.put_blocked hwait
          exact absurd (hnone.symm.trans hd) (by simp)
    · exact ⟨hwait, rfl, Nat.le_refl _⟩
  · intro σ hok hwait
    refine ⟨.clock (.get false), rfl, ?_⟩
    simp only [step, Label.isCall, Bool.false_eq_true, false_and, if_false, Option.isSome_map]
    exact hok.clock.enabled hwait
  · show clockTogo σ₀.clock.getter < 5
    cases σ₀.clock.getter <;> simp [clockTogo]

/-- Every accepted command is returned, if the chronometer task goes on. -/
theorem chrono_serves {σ₀ : System} (h : SystemOk σ₀) (hw : σ₀.chrono.Waiting) :
    machine.Serves isChronoGet 9 (fun σ => σ₀.chrono.accepted <+: σ.chrono.delivered) σ₀ := by
  refine serves_waiting System.chrono (fun σ => chronoTogo σ.chrono) ?_ ?_ ?_ ?_ h hw ?_
  · intro σ l σ' hok hstep
    rcases step_cases hstep with ⟨k, d, _, hd, rfl⟩ | ⟨k, d, _, hd, rfl⟩
    · exact List.prefix_refl _
    · exact hok.chrono.delivered_mono hd
  · intro σ l σ' hok hwait hmine hstep
    rcases step_cases hstep with ⟨k, d, rfl, hd, rfl⟩ | ⟨k, d, rfl, hd, rfl⟩
    · cases hmine
    · cases k with
      | get timeout => exact hok.chrono.serve hwait hd
      | call c => cases hmine
      | put => cases hmine
  · intro σ l σ' hok hwait hmine hstep
    rcases step_cases hstep with ⟨k, d, rfl, hd, rfl⟩ | ⟨k, d, rfl, hd, rfl⟩
    · exact ⟨hwait, rfl, Nat.le_refl _⟩
    · cases k with
      | get timeout => cases hmine
      | call c =>
          simp only [chronoStep] at hd
          split at hd
          · cases hd
            exact ⟨hwait.call c, rfl, Nat.le_refl _⟩
          · cases hd
      | put =>
          have hnone := hok.chrono.inv.put_blocked hwait
          exact absurd (hnone.symm.trans hd) (by simp)
  · intro σ hok hwait
    refine ⟨.chrono (.get true), rfl, ?_⟩
    simp only [step, Label.isCall, Bool.false_eq_true, false_and, if_false, Option.isSome_map]
    exact hok.chrono.enabled hwait
  · unfold chronoTogo
    split <;> first | decide | (split <;> decide)

/-! ## The streams -/

/-- The commands that passed the test of `Put` have come out of `Get` in their
order, all but one at most, and none was overwritten in the buffer. -/
structure State.Exact {S C : Type} (σ : State S C) : Prop where
  in_order : ∃ rest, σ.accepted = σ.delivered ++ rest ∧ rest.length ≤ 1
  intact : σ.overwritten = false

/-- What `Get` returned. -/
def State.results {S C : Type} (σ : State S C) : List C := σ.got.map Prod.fst

theorem Inv.exact {S C : Type} {accepts : S → C → Bool} {key : C → Bool} {σ : State S C}
    (h : Inv accepts key σ) : σ.Exact :=
  ⟨⟨σ.pending, h.account, h.pending_le⟩, h.intact⟩

/-- The results are the beginning of what is told in some status, or they end
with the last command in a status where it may come. -/
theorem State.Told.results {S C : Type} {D : Device S C} {σ : State S C} (h : σ.Told D) :
    (∃ s, ∃ w ∈ D.told s, σ.results <+: w) ∨
      ∃ p s, σ.results = p ++ [D.last] ∧ D.ends s ∧ p ∈ D.told s := by
  have hsaid : σ.said = σ.results ++ σ.getter.returning := rfl
  rcases h with ⟨_, htold⟩ | ⟨hover | hover, p, s, hp, hends, htold⟩
  · refine .inl ⟨σ.status, σ.said, htold, ?_⟩
    rw [hsaid]
    exact List.prefix_append _ _
  · refine .inl ⟨s, p, htold, ?_⟩
    rw [hsaid, hover] at hp
    rw [List.append_cancel_right hp]
  · refine .inr ⟨p, s, ?_, hends, htold⟩
    rw [hsaid, hover] at hp
    simpa [GetPc.returning] using hp

theorem ClockOk.stream {σ : State ClockStatus ClockCommand} (h : ClockOk σ) :
    ClockStream σ.results := by
  rcases h.told.results with ⟨s, w, hw, hpre⟩ | ⟨p, s, hp, _, hw⟩
  · obtain ⟨v, hv, hwv⟩ := ClockStatus.told_begins hw
    exact .inl ⟨v, hv, hpre.trans hwv⟩
  · refine .inr ⟨p, hp, ?_⟩
    cases s with
    | stopped => exact .inl hw
    | running => exact .inr hw

theorem ChronoOk.stream {σ : State ChronoStatus ChronoCommand} (h : ChronoOk σ) :
    ChronoStream σ.results := by
  rcases h.told.results with ⟨s, w, hw, hpre⟩ | ⟨p, s, hp, hends, hw⟩
  · obtain ⟨v, hv, hwv⟩ := ChronoStatus.told_begins hw
    exact .inl ⟨v, hv, hpre.trans hwv⟩
  · refine .inr ⟨p, hp, ?_⟩
    cases s with
    | stoppedInitial => exact .inl hw
    | running => exact .inr hw
    | stoppedFinal => exact absurd rfl hends

/-- In every run, for both devices: accepted commands come out of `Get` once and
in order, what `Get` returns is in the language of the device, and a command
that `Put` has left in the buffer comes out within the next statements of
`Get`, whatever the other tasks do and whichever waits time out. -/
theorem command_streams : machine.Invariant fun σ =>
    (σ.clock.Exact ∧ ClockStream σ.clock.results ∧
      (σ.clock.Waiting → machine.Serves isClockGet 5
        (fun σ' => σ.clock.accepted <+: σ'.clock.delivered) σ)) ∧
    σ.chrono.Exact ∧ ChronoStream σ.chrono.results ∧
      (σ.chrono.Waiting → machine.Serves isChronoGet 9
        (fun σ' => σ.chrono.accepted <+: σ'.chrono.delivered) σ) := by
  intro σ hσ
  have h := system_invariant σ hσ
  exact ⟨⟨h.clock.inv.exact, h.clock.stream, clock_serves h⟩,
    h.chrono.inv.exact, h.chrono.stream, chrono_serves h⟩

end RtaiDemos.Clock.Sem
