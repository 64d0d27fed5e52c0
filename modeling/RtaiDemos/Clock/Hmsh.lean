import Mathlib.Algebra.Order.Ring.Int
import Mathlib.Data.Fin.VecNotation
import RtaiDemos.Clock.Command

/-!
# Hours, their chains, and what the two tasks do with a command

The `MenageHmsh` functions, one text in both versions of `dispclk.c`, and the
bodies of `ClockChrono_Clock` and `ClockChrono_Chrono` between a command and the
display. The fields of an hour stay in the range the code keeps them in, so that
`digits` is always indexed inside.
-/

namespace RtaiDemos.Clock

/-- `MenageHmsh_tHour`. -/
@[ext]
structure MenageHmsh_tHour where
  hours : Nat
  minutes : Nat
  seconds : Nat
  hundredthes : Nat
  hours_lt : hours < 24
  minutes_lt : minutes < 60
  seconds_lt : seconds < 60
  hundredthes_lt : hundredthes < 100
  deriving DecidableEq

/-- `MenageHmsh_tChain11`. -/
abbrev MenageHmsh_tChain11 := Fin 12 → Char

/-- A chain has a first character. -/
instance chainNeZero : NeZero 12 := Nat.instNeZeroSucc

/-- `digits`. -/
def digits : Fin 10 → Char := ![ '0', '1', '2', '3', '4', '5', '6', '7', '8', '9' ]

/-- The character 101 in the second place ends the display. -/
def sentinel : Char := Char.ofNat 101

def MenageHmsh_Initialise : MenageHmsh_tHour :=
  ⟨0, 0, 0, 0, by decide, by decide, by decide, by decide⟩

def MenageHmsh_InitialiseHundredthes (h : MenageHmsh_tHour) : MenageHmsh_tHour :=
  { h with hundredthes := 0, hundredthes_lt := by decide }

def MenageHmsh_Equal (h1 h2 : MenageHmsh_tHour) : Bool :=
  h1.hours == h2.hours && h1.minutes == h2.minutes && h1.seconds == h2.seconds &&
    h1.hundredthes == h2.hundredthes

def MenageHmsh_AdvanceHours (h : MenageHmsh_tHour) : MenageHmsh_tHour :=
  { h with hours := (h.hours + 1) % 24, hours_lt := Nat.mod_lt _ (by decide) }

def MenageHmsh_AdvanceMinutes (h : MenageHmsh_tHour) : MenageHmsh_tHour :=
  { h with minutes := (h.minutes + 1) % 60, minutes_lt := Nat.mod_lt _ (by decide) }

def MenageHmsh_AdvanceSeconds (h : MenageHmsh_tHour) : MenageHmsh_tHour :=
  { h with seconds := (h.seconds + 1) % 60, seconds_lt := Nat.mod_lt _ (by decide) }

def MenageHmsh_PlusOneSecond (h : MenageHmsh_tHour) : MenageHmsh_tHour :=
  let h := MenageHmsh_AdvanceSeconds h
  if h.seconds = 0 then
    let h := MenageHmsh_AdvanceMinutes h
    if h.minutes = 0 then MenageHmsh_AdvanceHours h else h
  else h

def MenageHmsh_PlusNSeconds (n : Nat) (h : MenageHmsh_tHour) : MenageHmsh_tHour :=
  MenageHmsh_PlusOneSecond^[n] h

/-- The hour and `*reportSeconds`. -/
def MenageHmsh_PlusOneUnit (h : MenageHmsh_tHour) : MenageHmsh_tHour × Bool :=
  let h := { h with
    hundredthes := (h.hundredthes + 1) % 100, hundredthes_lt := Nat.mod_lt _ (by decide) }
  if h.hundredthes = 0 then (MenageHmsh_PlusOneSecond h, true) else (h, false)

/-- The tens and the units of a number below 100. -/
def tens (n : Nat) (h : n < 100) : Char := digits ⟨n / 10, by omega⟩

def units (n : Nat) : Char := digits ⟨n % 10, Nat.mod_lt _ (by decide)⟩

/-- `chain[0]` keeps its value. -/
def MenageHmsh_Convert (h : MenageHmsh_tHour) (hundredthes : Bool) (chain : MenageHmsh_tChain11) :
    MenageHmsh_tChain11 :=
  ![chain 0,
    tens h.hours (Nat.lt_trans h.hours_lt (by decide)), units h.hours, ':',
    tens h.minutes (Nat.lt_trans h.minutes_lt (by decide)), units h.minutes, ':',
    tens h.seconds (Nat.lt_trans h.seconds_lt (by decide)), units h.seconds,
    if hundredthes then '.' else ' ',
    if hundredthes then tens h.hundredthes h.hundredthes_lt else ' ',
    if hundredthes then units h.hundredthes else ' ']

theorem digits_ne_sentinel (i : Fin 10) : digits i ≠ sentinel := by
  revert i
  decide

/-- No chain of an hour looks like the end. -/
theorem convert_ne_sentinel (h : MenageHmsh_tHour) (hundredthes : Bool)
    (chain : MenageHmsh_tChain11) : MenageHmsh_Convert h hundredthes chain 1 ≠ sentinel := by
  show tens h.hours (Nat.lt_trans h.hours_lt (by decide)) ≠ sentinel
  exact digits_ne_sentinel _

/-! ## The clock and the chronometer -/

/-- The variables of `ClockChrono_Clock`. -/
structure ClockVars where
  hour : MenageHmsh_tHour
  hourChain : MenageHmsh_tChain11

/-- The `switch` of `ClockChrono_Clock`: the hour and `display`, or the end. -/
def ClockVars.switch (hour : MenageHmsh_tHour) : ClockCommand → Option (MenageHmsh_tHour × Bool)
  | .R => some (MenageHmsh_PlusOneUnit hour)
  | .T => some (MenageHmsh_InitialiseHundredthes hour, false)
  | .H => some (MenageHmsh_AdvanceHours hour, true)
  | .M => some (MenageHmsh_AdvanceMinutes hour, true)
  | .S => some (MenageHmsh_AdvanceSeconds hour, true)
  | .F => none

/-- The body of the loop of `ClockChrono_Clock`: the variables, and whether
`hourChain` goes to the display. -/
def ClockVars.turn (v : ClockVars) (command : ClockCommand) : ClockVars × Bool :=
  match ClockVars.switch v.hour command with
  | some (hour, display) =>
    (⟨hour, if display then MenageHmsh_Convert hour false v.hourChain else v.hourChain⟩, display)
  -- `goto end`: the terminating chain
  | none => (⟨v.hour, Function.update v.hourChain 1 sentinel⟩, true)

/-- The variables of `ClockChrono_Chrono`. -/
structure ChronoVars where
  times : MenageHmsh_tHour
  timesChain : MenageHmsh_tChain11
  Intermediatetimes : Bool
  endIntermediateTimes : MenageHmsh_tHour
  hundredthes : Bool

/-- The `switch` of `ClockChrono_Chrono`: the variables and `display`, or the
end. -/
def ChronoVars.switch (v : ChronoVars) : ChronoCommand → Option (ChronoVars × Bool)
  | .R =>
    some ({ v with
      times := MenageHmsh_Initialise, hundredthes := false, Intermediatetimes := false }, true)
  | .C =>
    let (times, display) := MenageHmsh_PlusOneUnit v.times
    if v.Intermediatetimes then
      let Intermediatetimes := !MenageHmsh_Equal times v.endIntermediateTimes
      some ({ v with
        times := times, Intermediatetimes := Intermediatetimes, hundredthes := false },
        !Intermediatetimes)
    else some ({ v with times := times }, display)
  | .I =>
    some ({ v with
      Intermediatetimes := true
      endIntermediateTimes := MenageHmsh_PlusNSeconds 3 v.times
      hundredthes := true }, true)
  | .E => some ({ v with hundredthes := true }, true)
  | .F => none

/-- The body of the loop of `ClockChrono_Chrono`: the variables, and whether
`timesChain` goes to the display; or the end. -/
def ChronoVars.turn (v : ChronoVars) (command : ChronoCommand) : Option (ChronoVars × Bool) :=
  (v.switch command).map fun (v, display) =>
    ({ v with
      timesChain := if display then MenageHmsh_Convert v.times v.hundredthes v.timesChain
        else v.timesChain }, display)

/-- What the clock passes to the display is the chain of an hour, unless the
command is `F`. -/
theorem ClockVars.turn_chain {v v' : ClockVars} {command : ClockCommand}
    (h : v.turn command = (v', true)) :
    if command = .F then v'.hourChain 1 = sentinel else v'.hourChain 1 ≠ sentinel := by
  cases command with
  | F =>
      cases h
      rw [if_pos rfl]
      exact Function.update_self 1 sentinel v.hourChain
  | T => cases h
  | R =>
      have hd : (MenageHmsh_PlusOneUnit v.hour).2 = true := congrArg Prod.snd h
      have hv : (v.turn .R).1 = v' := congrArg Prod.fst h
      rw [if_neg (by decide), ← hv]
      simp only [ClockVars.turn, ClockVars.switch, hd, if_true]
      exact convert_ne_sentinel _ false v.hourChain
  | H => cases h; exact convert_ne_sentinel _ false v.hourChain
  | M => cases h; exact convert_ne_sentinel _ false v.hourChain
  | S => cases h; exact convert_ne_sentinel _ false v.hourChain

theorem ChronoVars.turn_chain {v v' : ChronoVars} {command : ChronoCommand}
    (h : v.turn command = some (v', true)) : v'.timesChain 1 ≠ sentinel := by
  obtain ⟨⟨w, display⟩, _, he⟩ := Option.map_eq_some_iff.mp h
  cases he
  exact convert_ne_sentinel w.times w.hundredthes w.timesChain

end RtaiDemos.Clock
