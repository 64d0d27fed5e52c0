import RtaiDemos.Core.CInt
import RtaiDemos.Clock.Hmsh

/-!
# The fields of an hour as ints

The `MenageHmsh` functions on the ints of the source, with nothing known about the
fields. `none` is an int operation that overflows, or an index outside of `digits`.
-/

namespace RtaiDemos.Clock.Fields

open CInt

/-- `MenageHmsh_tHour`, as `clock.h` declares it. -/
@[ext]
structure Hour where
  hours : Int
  minutes : Int
  seconds : Int
  hundredthes : Int
  deriving DecidableEq, Repr

def MenageHmsh_Initialise : Hour := ⟨0, 0, 0, 0⟩

def MenageHmsh_InitialiseHundredthes (h : Hour) : Hour := { h with hundredthes := 0 }

def MenageHmsh_Equal (h1 h2 : Hour) : Bool :=
  h1.hours == h2.hours && h1.minutes == h2.minutes && h1.seconds == h2.seconds &&
    h1.hundredthes == h2.hundredthes

/-- `(field + 1)%n`. -/
def advance (field n : Int) : Option Int := (checked (field + 1)).map fun x => x.tmod n

def MenageHmsh_AdvanceHours (h : Hour) : Option Hour :=
  (advance h.hours 24).map fun x => { h with hours := x }

def MenageHmsh_AdvanceMinutes (h : Hour) : Option Hour :=
  (advance h.minutes 60).map fun x => { h with minutes := x }

def MenageHmsh_AdvanceSeconds (h : Hour) : Option Hour :=
  (advance h.seconds 60).map fun x => { h with seconds := x }

def MenageHmsh_PlusOneSecond (h : Hour) : Option Hour :=
  (MenageHmsh_AdvanceSeconds h).bind fun h =>
    if h.seconds = 0 then
      (MenageHmsh_AdvanceMinutes h).bind fun h =>
        if h.minutes = 0 then MenageHmsh_AdvanceHours h else some h
    else some h

/-- The loop of `MenageHmsh_PlusNSeconds` from `i` on; `i++` overflows at the last int. -/
def plusNSecondsFrom (n i : Int) (h : Hour) : Option Hour :=
  if i ≤ n then
    (MenageHmsh_PlusOneSecond h).bind fun h =>
      if i < 2147483647 then plusNSecondsFrom n (i + 1) h else none
  else some h
termination_by (2147483647 - i).toNat

def MenageHmsh_PlusNSeconds (n : Int) (h : Hour) : Option Hour := plusNSecondsFrom n 1 h

/-- The hour and `*reportSeconds`. -/
def MenageHmsh_PlusOneUnit (h : Hour) : Option (Hour × Bool) :=
  (advance h.hundredthes 100).bind fun x =>
    let h := { h with hundredthes := x }
    let reportSeconds := decide (h.hundredthes = 0)
    if reportSeconds then (MenageHmsh_PlusOneSecond h).map fun h => (h, reportSeconds)
    else some (h, reportSeconds)

/-- `digits[i]`. -/
def digit (i : Int) : Option Char :=
  if h : 0 ≤ i ∧ i < 10 then some (digits ⟨i.toNat, by omega⟩) else none

/-- The indices into `digits` that `MenageHmsh_Convert` uses. -/
def indices (h : Hour) (hundredthes : Bool) : List Int :=
  [h.hours.tdiv 10, h.hours.tmod 10, h.minutes.tdiv 10, h.minutes.tmod 10, h.seconds.tdiv 10,
    h.seconds.tmod 10] ++
    if hundredthes then [h.hundredthes.tdiv 10, h.hundredthes.tmod 10] else []

def MenageHmsh_Convert (h : Hour) (hundredthes : Bool) (chain : MenageHmsh_tChain11) :
    Option MenageHmsh_tChain11 := do
  let c1 ← digit (h.hours.tdiv 10)
  let c2 ← digit (h.hours.tmod 10)
  let c4 ← digit (h.minutes.tdiv 10)
  let c5 ← digit (h.minutes.tmod 10)
  let c7 ← digit (h.seconds.tdiv 10)
  let c8 ← digit (h.seconds.tmod 10)
  if hundredthes then
    let c10 ← digit (h.hundredthes.tdiv 10)
    let c11 ← digit (h.hundredthes.tmod 10)
    some ![chain 0, c1, c2, ':', c4, c5, ':', c7, c8, '.', c10, c11]
  else some ![chain 0, c1, c2, ':', c4, c5, ':', c7, c8, ' ', ' ', ' ']

/-! ## Sequences of operations -/

/-- What is done to an hour. -/
inductive Operation
  | Initialise
  | InitialiseHundredthes
  | AdvanceHours
  | AdvanceMinutes
  | AdvanceSeconds
  | PlusOneSecond
  | PlusNSeconds (n : Int)
  | PlusOneUnit
  deriving DecidableEq, Repr

def Operation.apply (h : Hour) : Operation → Option Hour
  | .Initialise => some MenageHmsh_Initialise
  | .InitialiseHundredthes => some (MenageHmsh_InitialiseHundredthes h)
  | .AdvanceHours => MenageHmsh_AdvanceHours h
  | .AdvanceMinutes => MenageHmsh_AdvanceMinutes h
  | .AdvanceSeconds => MenageHmsh_AdvanceSeconds h
  | .PlusOneSecond => MenageHmsh_PlusOneSecond h
  | .PlusNSeconds n => MenageHmsh_PlusNSeconds n h
  | .PlusOneUnit => (MenageHmsh_PlusOneUnit h).map Prod.fst

/-- The operations one after the other, from `MenageHmsh_Initialise`. -/
def run (ops : List Operation) : Option Hour := ops.foldlM Operation.apply MenageHmsh_Initialise

/-- That many times `MenageHmsh_PlusOneUnit`. -/
def plusUnits (n : Nat) (h : Hour) : Option Hour :=
  (fun o : Option Hour => o.bind fun h => (MenageHmsh_PlusOneUnit h).map Prod.fst)^[n] (some h)

/-! ## Valid times -/

/-- A time of the day. -/
structure Valid (h : Hour) : Prop where
  hours : 0 ≤ h.hours ∧ h.hours < 24
  minutes : 0 ≤ h.minutes ∧ h.minutes < 60
  seconds : 0 ≤ h.seconds ∧ h.seconds < 60
  hundredthes : 0 ≤ h.hundredthes ∧ h.hundredthes < 100

/-- The hundredths since midnight. -/
def Hour.count (h : Hour) : Int :=
  ((h.hours * 60 + h.minutes) * 60 + h.seconds) * 100 + h.hundredthes

/-- The fields of an hour that is in range. -/
def ofHour (h : MenageHmsh_tHour) : Hour := ⟨h.hours, h.minutes, h.seconds, h.hundredthes⟩

theorem ofHour_valid (h : MenageHmsh_tHour) : Valid (ofHour h) :=
  ⟨⟨Int.natCast_nonneg _, Int.ofNat_lt.mpr h.hours_lt⟩,
    ⟨Int.natCast_nonneg _, Int.ofNat_lt.mpr h.minutes_lt⟩,
    ⟨Int.natCast_nonneg _, Int.ofNat_lt.mpr h.seconds_lt⟩,
    ⟨Int.natCast_nonneg _, Int.ofNat_lt.mpr h.hundredthes_lt⟩⟩

/-- Valid fields are those of an hour that is in range. -/
theorem Valid.exists_ofHour {h : Hour} (hv : Valid h) : ∃ v, ofHour v = h := by
  obtain ⟨⟨hh, hh'⟩, ⟨hm, hm'⟩, ⟨hs, hs'⟩, ⟨hc, hc'⟩⟩ := hv
  refine ⟨⟨h.hours.toNat, h.minutes.toNat, h.seconds.toNat, h.hundredthes.toNat, by omega,
    by omega, by omega, by omega⟩, ?_⟩
  ext
  · exact Int.toNat_of_nonneg hh
  · exact Int.toNat_of_nonneg hm
  · exact Int.toNat_of_nonneg hs
  · exact Int.toNat_of_nonneg hc

theorem ofHour_injective {v v' : MenageHmsh_tHour} (h : ofHour v = ofHour v') : v = v' := by
  ext
  · exact Int.ofNat_inj.mp (congrArg Hour.hours h)
  · exact Int.ofNat_inj.mp (congrArg Hour.minutes h)
  · exact Int.ofNat_inj.mp (congrArg Hour.seconds h)
  · exact Int.ofNat_inj.mp (congrArg Hour.hundredthes h)

/-- The operations on hours in range. -/
def Operation.on (v : MenageHmsh_tHour) : Operation → MenageHmsh_tHour
  | .Initialise => Clock.MenageHmsh_Initialise
  | .InitialiseHundredthes => Clock.MenageHmsh_InitialiseHundredthes v
  | .AdvanceHours => Clock.MenageHmsh_AdvanceHours v
  | .AdvanceMinutes => Clock.MenageHmsh_AdvanceMinutes v
  | .AdvanceSeconds => Clock.MenageHmsh_AdvanceSeconds v
  | .PlusOneSecond => Clock.MenageHmsh_PlusOneSecond v
  | .PlusNSeconds n => Clock.MenageHmsh_PlusNSeconds n.toNat v
  | .PlusOneUnit => (Clock.MenageHmsh_PlusOneUnit v).1

end RtaiDemos.Clock.Fields
