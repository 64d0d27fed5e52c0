import Mathlib.Computability.Language

/-!
# The commands of the clock and the chronometer

The command characters, the two statuses, the test that every version of `Put`
makes, and the languages of what `Get` returns: `((H|M|S)* R R* T)*` for the
clock and `(C (C|I)* E R)*` for the chronometer. The status tells how far into
its language a device has come.
-/

open scoped Computability

namespace RtaiDemos.Clock

/-- The commands of the clock. -/
inductive ClockCommand
  | T | R | H | M | S | F
  deriving DecidableEq, Repr

/-- The commands of the chronometer; `R` only comes out of `Get`. -/
inductive ChronoCommand
  | C | I | E | R | F
  deriving DecidableEq, Repr

/-- `Clockstatus`. -/
inductive ClockStatus
  | stopped | running
  deriving DecidableEq, Repr

/-- `Chronostatus`. -/
inductive ChronoStatus
  | stoppedInitial | running | stoppedFinal
  deriving DecidableEq, Repr

/-- The test of `CommandClock_Put`. -/
def ClockStatus.accepts (Clockstatus : ClockStatus) (command : ClockCommand) : Bool :=
  ((Clockstatus == .running) == (command == .T)) || command == .F

/-- The test of `CommandChrono_Put`. -/
def ChronoStatus.accepts (Chronostatus : ChronoStatus) (command : ChronoCommand) : Bool :=
  ((Chronostatus == .running) != (command == .C)) || command == .F

/-- The status after the case `s` of the clock's `switch` has got a command. -/
def ClockStatus.assigned : ClockStatus → ClockCommand → ClockStatus
  | .stopped, command => if command = .R then .running else .stopped
  | .running, command => if command = .T then .stopped else .running

/-- The status after the case `s` of the chronometer's `switch` has got a
command. -/
def ChronoStatus.assigned : ChronoStatus → ChronoCommand → ChronoStatus
  | .stoppedInitial, _ => .running
  | .running, command => if command = .E then .stoppedFinal else .running
  | .stoppedFinal, _ => .stoppedFinal

/-- What `ClockChrono_Read` passes to `CommandChrono_Put`. -/
def ChronoCommand.key (command : ChronoCommand) : Bool := command != .R

/-! ## Languages -/

theorem snoc_mem_kstar {α : Type} {l : Language α} {x y : List α} (hx : x ∈ l∗) (hy : y ∈ l) :
    x ++ y ∈ l∗ := by
  rw [← Language.one_add_kstar_mul_self_eq_kstar]
  exact .inr (Language.append_mem_mul hx hy)

/-- `H|M|S`. -/
def clockSet : Language ClockCommand := {[.H]} + {[.M]} + {[.S]}

/-- `(H|M|S)* R R*`. -/
def clockRun : Language ClockCommand := clockSet∗ * {[.R]} * {[.R]}∗

/-- `(H|M|S)* R R* T`. -/
def clockRound : Language ClockCommand := clockRun * {[.T]}

/-- What the clock has been told in a status. -/
def ClockStatus.told : ClockStatus → Language ClockCommand
  | .stopped => clockRound∗ * clockSet∗
  | .running => clockRound∗ * clockRun

/-- The commands of the language: the status that follows. -/
def ClockStatus.next : ClockStatus → ClockCommand → Option ClockStatus
  | .stopped, .H | .stopped, .M | .stopped, .S => some .stopped
  | .stopped, .R => some .running
  | .running, .R => some .running
  | .running, .T => some .stopped
  | _, _ => none

/-- `C|I`. -/
def chronoStep : Language ChronoCommand := {[.C]} + {[.I]}

/-- `C (C|I)*`. -/
def chronoRun : Language ChronoCommand := {[.C]} * chronoStep∗

/-- `C (C|I)* E R`. -/
def chronoRound : Language ChronoCommand := chronoRun * {[.E]} * {[.R]}

/-- What the chronometer has been told in a status. -/
def ChronoStatus.told : ChronoStatus → Language ChronoCommand
  | .stoppedInitial => chronoRound∗
  | .running => chronoRound∗ * chronoRun
  | .stoppedFinal => chronoRound∗ * (chronoRun * {[.E]})

/-- The commands of the language: the status that follows. -/
def ChronoStatus.next : ChronoStatus → ChronoCommand → Option ChronoStatus
  | .stoppedInitial, .C => some .running
  | .running, .C | .running, .I => some .running
  | .running, .E => some .stoppedFinal
  | .stoppedFinal, .R => some .stoppedInitial
  | _, _ => none

theorem ClockStatus.told_next {s s' : ClockStatus} {c : ClockCommand} {w : List ClockCommand}
    (h : s.next c = some s') (hw : w ∈ s.told) : w ++ [c] ∈ s'.told := by
  cases s with
  | stopped =>
      obtain ⟨x, hx, y, hy, rfl⟩ := Language.mem_mul.mp hw
      have hset : c = .H ∨ c = .M ∨ c = .S → x ++ y ++ [c] ∈ ClockStatus.stopped.told := by
        intro hc
        have hmem : [c] ∈ clockSet := by
          rcases hc with rfl | rfl | rfl
          · exact .inl (.inl rfl)
          · exact .inl (.inr rfl)
          · exact .inr rfl
        rw [List.append_assoc]
        exact Language.append_mem_mul hx (snoc_mem_kstar hy hmem)
      cases c with
      | H => cases h; exact hset (.inl rfl)
      | M => cases h; exact hset (.inr (.inl rfl))
      | S => cases h; exact hset (.inr (.inr rfl))
      | R =>
          cases h
          rw [List.append_assoc]
          refine Language.append_mem_mul hx ?_
          have hrun := Language.append_mem_mul (Language.append_mem_mul hy (rfl : [.R] ∈ {[.R]}))
            (Language.nil_mem_kstar {[ClockCommand.R]})
          rw [List.append_nil] at hrun
          exact hrun
      | T => cases h
      | F => cases h
  | running =>
      obtain ⟨x, hx, y, hy, rfl⟩ := Language.mem_mul.mp hw
      cases c with
      | R =>
          cases h
          obtain ⟨u, hu, v, hv, rfl⟩ := Language.mem_mul.mp hy
          rw [List.append_assoc, List.append_assoc]
          exact Language.append_mem_mul hx (Language.append_mem_mul hu (snoc_mem_kstar hv rfl))
      | T =>
          cases h
          have hround : y ++ [.T] ∈ clockRound := Language.append_mem_mul hy rfl
          have hstop := Language.append_mem_mul (snoc_mem_kstar hx hround)
            (Language.nil_mem_kstar clockSet)
          rw [List.append_nil, ← List.append_assoc] at hstop
          exact hstop
      | H => cases h
      | M => cases h
      | S => cases h
      | F => cases h

theorem ChronoStatus.told_next {s s' : ChronoStatus} {c : ChronoCommand} {w : List ChronoCommand}
    (h : s.next c = some s') (hw : w ∈ s.told) : w ++ [c] ∈ s'.told := by
  cases s with
  | stoppedInitial =>
      cases c with
      | C =>
          cases h
          have hrun := Language.append_mem_mul (rfl : [.C] ∈ {[.C]})
            (Language.nil_mem_kstar chronoStep)
          exact Language.append_mem_mul hw hrun
      | I => cases h
      | E => cases h
      | R => cases h
      | F => cases h
  | running =>
      obtain ⟨x, hx, y, hy, rfl⟩ := Language.mem_mul.mp hw
      have hstep : c = .C ∨ c = .I → x ++ y ++ [c] ∈ ChronoStatus.running.told := by
        intro hc
        have hmem : [c] ∈ chronoStep := by
          rcases hc with rfl | rfl
          · exact .inl rfl
          · exact .inr rfl
        obtain ⟨u, hu, v, hv, rfl⟩ := Language.mem_mul.mp hy
        rw [List.append_assoc, List.append_assoc]
        exact Language.append_mem_mul hx (Language.append_mem_mul hu (snoc_mem_kstar hv hmem))
      cases c with
      | C => cases h; exact hstep (.inl rfl)
      | I => cases h; exact hstep (.inr rfl)
      | E =>
          cases h
          rw [List.append_assoc]
          exact Language.append_mem_mul hx (Language.append_mem_mul hy rfl)
      | R => cases h
      | F => cases h
  | stoppedFinal =>
      obtain ⟨x, hx, y, hy, rfl⟩ := Language.mem_mul.mp hw
      cases c with
      | R =>
          cases h
          rw [List.append_assoc]
          exact snoc_mem_kstar hx (Language.append_mem_mul hy rfl)
      | C => cases h
      | I => cases h
      | E => cases h
      | F => cases h

/-- What a device has been told is the beginning of a word of its language. -/
theorem ClockStatus.told_begins {s : ClockStatus} {w : List ClockCommand} (h : w ∈ s.told) :
    ∃ v ∈ clockRound∗, w <+: v := by
  have hrunning : ∀ u ∈ ClockStatus.running.told, u ++ [.T] ∈ clockRound∗ := by
    intro u hu
    obtain ⟨x, hx, y, hy, rfl⟩ := Language.mem_mul.mp hu
    rw [List.append_assoc]
    exact snoc_mem_kstar hx (Language.append_mem_mul hy rfl)
  cases s with
  | stopped =>
      have hrun := ClockStatus.told_next (c := .R) rfl h
      exact ⟨_, hrunning _ hrun, by rw [List.append_assoc]; exact List.prefix_append _ _⟩
  | running => exact ⟨_, hrunning w h, List.prefix_append _ _⟩

theorem ChronoStatus.told_begins {s : ChronoStatus} {w : List ChronoCommand} (h : w ∈ s.told) :
    ∃ v ∈ chronoRound∗, w <+: v := by
  have hfinal : ∀ u ∈ ChronoStatus.stoppedFinal.told, ∃ v ∈ chronoRound∗, u <+: v := by
    intro u hu
    exact ⟨_, ChronoStatus.told_next (c := .R) rfl hu, List.prefix_append _ _⟩
  cases s with
  | stoppedInitial => exact ⟨w, h, List.prefix_refl w⟩
  | running =>
      obtain ⟨v, hv, hpre⟩ := hfinal _ (ChronoStatus.told_next (c := .E) rfl h)
      exact ⟨v, hv, (List.prefix_append _ _).trans hpre⟩
  | stoppedFinal => exact hfinal w h

/-- A beginning of a word of `((H|M|S)* R R* T)*`, or one that ends with an `F`
where the clock is stopped or running. -/
def ClockStream (w : List ClockCommand) : Prop :=
  (∃ v ∈ clockRound∗, w <+: v) ∨
    ∃ p, w = p ++ [.F] ∧ (p ∈ ClockStatus.stopped.told ∨ p ∈ ClockStatus.running.told)

/-- A beginning of a word of `(C (C|I)* E R)*`, or one that ends with an `F`
where the chronometer is in its initial stop or running. -/
def ChronoStream (w : List ChronoCommand) : Prop :=
  (∃ v ∈ chronoRound∗, w <+: v) ∨
    ∃ p, w = p ++ [.F] ∧ (p ∈ ChronoStatus.stoppedInitial.told ∨ p ∈ ChronoStatus.running.told)

/-- A device for the arguments about it: the test of `Put`, the commands that are
put, the status a command leads to in a case of the `switch`, the last command,
and the language with its statuses. -/
structure Device (S C : Type) where
  accepts : S → C → Bool
  key : C → Bool
  assigned : S → C → S
  last : C
  next : S → C → Option S
  ends : S → Prop
  told : S → Language C
  told_next : ∀ {s s' c w}, next s c = some s' → w ∈ told s → w ++ [c] ∈ told s'

/-- The clock: `F` may come in both statuses. -/
def clock : Device ClockStatus ClockCommand where
  accepts := ClockStatus.accepts
  key _ := true
  assigned := ClockStatus.assigned
  last := .F
  next := ClockStatus.next
  ends _ := True
  told := ClockStatus.told
  told_next := ClockStatus.told_next

/-- The chronometer: in its final stop `R` comes first. -/
def chrono : Device ChronoStatus ChronoCommand where
  accepts := ChronoStatus.accepts
  key := ChronoCommand.key
  assigned := ChronoStatus.assigned
  last := .F
  next := ChronoStatus.next
  ends s := s ≠ .stoppedFinal
  told := ChronoStatus.told
  told_next := ChronoStatus.told_next

end RtaiDemos.Clock
