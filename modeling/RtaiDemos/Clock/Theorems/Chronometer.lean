import RtaiDemos.Clock.Logic.Hours

/-!
# The display of the chronometer

What the chronometer shows after a command depends on the commands before it: how many
units have passed since the last reset, and how many since an intermediate time was asked
for. The loop of `ClockChrono_Chrono` keeps neither number. It has an hour that wraps at
midnight and an hour at which the intermediate time ends.
-/

open scoped Computability

namespace RtaiDemos.Clock

/-! ## What is to be shown -/

/-- The commands since the last one that is marked, the latest first. -/
def since (marked : ChronoCommand → Bool) (p : List ChronoCommand) : List ChronoCommand :=
  p.reverse.takeWhile fun c => !marked c

/-- The hundredths since the last reset, or since midnight if there was none and the
chronometer began at `start`. -/
def elapsed (start : Nat) (p : List ChronoCommand) : Nat :=
  if .R ∈ p then (since (· == .R) p).count .C else start + p.count .C

/-- The commands that begin or end an intermediate time. -/
def ChronoCommand.marks (c : ChronoCommand) : Bool := c == .I || c == .E || c == .R

/-- The units since the last `I`, if no `E` or `R` has followed it. -/
def frozenFor (p : List ChronoCommand) : Option Nat :=
  if p.reverse.find? ChronoCommand.marks = some .I then
    some ((since ChronoCommand.marks p).count .C)
  else none

/-- What a command shows after `p`: a time, and whether with its hundredths. -/
def chronoSpec (start : Nat) (p : List ChronoCommand) : ChronoCommand → Option (Nat × Bool)
  | .R => some (0, false)
  | .I | .E => some (elapsed start p, true)
  | .C =>
    let now := elapsed start p + 1
    let due :=
      match frozenFor p with
      | some k => if k + 1 < 300 then false else k + 1 == 300 || now % 100 == 0
      | none => now % 100 == 0
    if due then some (now, false) else none
  | .F => none

/-- The chain of what is shown; the time of day wraps at midnight. -/
def specChain (first : Char) (start : Nat) (p : List ChronoCommand) (c : ChronoCommand) :
    Option MenageHmsh_tChain11 :=
  (chronoSpec start p c).map fun (n, hundredthes) => face first (n % day) hundredthes

/-! ## What is shown -/

/-- A round of the loop: the variables, and the chain that goes to the display. -/
def ChronoVars.shows (v : ChronoVars) (c : ChronoCommand) :
    Option (ChronoVars × Option MenageHmsh_tChain11) :=
  (v.turn c).map fun (v, display) => (v, if display then some v.timesChain else none)

/-- The loop over the commands that `Get` returns. -/
def ChronoVars.loop (v : ChronoVars) : List ChronoCommand → Option ChronoVars
  | [] => some v
  | c :: p => (v.shows c).bind fun s => s.1.loop p

/-- What the last of the commands shows. -/
def ChronoVars.shown (v : ChronoVars) (p : List ChronoCommand) (c : ChronoCommand) :
    Option (Option MenageHmsh_tChain11) :=
  (v.loop p).bind fun v => (v.shows c).map Prod.snd

/-- The variables once the command `R` that the loop begins with has been carried out, but
for the hour, which is `hour`. The code itself begins at midnight. -/
def ChronoVars.reset (v : ChronoVars) (hour : MenageHmsh_tHour) : ChronoVars :=
  { v with
    times := hour
    hundredthes := false
    Intermediatetimes := false
    timesChain := face (v.timesChain 0) 0 false }

/-! ## One more command -/

theorem since_concat (marked : ChronoCommand → Bool) (p : List ChronoCommand) (c : ChronoCommand) :
    since marked (p ++ [c]) = if marked c then [] else c :: since marked p := by
  unfold since
  rw [List.reverse_append]
  cases hc : marked c <;> simp [hc]

theorem elapsed_concat (start : Nat) (p : List ChronoCommand) (c : ChronoCommand) :
    elapsed start (p ++ [c]) =
      if c = .R then 0 else if c = .C then elapsed start p + 1 else elapsed start p := by
  unfold elapsed
  rw [since_concat, List.count_append]
  by_cases hr : .R ∈ p
  · rw [if_pos (List.mem_append_left _ hr), if_pos hr]
    cases c <;> simp
  · rw [if_neg hr]
    cases c <;> simp [hr, Nat.add_assoc]

theorem frozenFor_concat (p : List ChronoCommand) (c : ChronoCommand) :
    frozenFor (p ++ [c]) =
      if c = .I then some 0
      else if c = .E ∨ c = .R then none
      else if c = .C then (frozenFor p).map (· + 1)
      else frozenFor p := by
  unfold frozenFor
  rw [since_concat, List.reverse_append]
  by_cases hi : p.reverse.find? ChronoCommand.marks = some .I
  · rw [if_pos hi]
    cases c <;> simp [ChronoCommand.marks, hi]
  · rw [if_neg hi]
    cases c <;> simp [ChronoCommand.marks, hi]

/-! ## The loop follows the commands -/

/-- How the loop stands with an intermediate time: it is on the display, and ends at an hour
that is as many units away as are missing from 300, or there is none. -/
inductive Freeze (start : Nat) (p : List ChronoCommand) (v : ChronoVars) : Prop
  | holds (k : Nat) (frozen : frozenFor p = some k) (short : k < 300)
      (on : v.Intermediatetimes = true)
      (ends : v.endIntermediateTimes.count = (elapsed start p + (300 - k)) % day)
  | over (free : ∀ k, frozenFor p = some k → 300 ≤ k) (off : v.Intermediatetimes = false)
      (plain : v.hundredthes = false)

/-- The variables after `p`, when the commands have come to the status `s`. After `E` only
the hour counts: `R` is next. -/
structure Following (first : Char) (start : Nat) (s : ChronoStatus) (p : List ChronoCommand)
    (v : ChronoVars) : Prop where
  first : v.timesChain 0 = first
  times : v.times.count = elapsed start p % day
  freeze : s = .stoppedFinal ∨ Freeze start p v

variable {first : Char} {start : Nat} {p : List ChronoCommand} {v : ChronoVars}

/-- A round of the loop that shows the hour. -/
theorem shows_some {c : ChronoCommand} {w : ChronoVars} {d : Option MenageHmsh_tChain11}
    (h : v.switch c = some (w, true))
    (hd : d = some (face (v.timesChain 0) w.times.count w.hundredthes)) :
    v.shows c =
      some ({ w with timesChain := face (v.timesChain 0) w.times.count w.hundredthes }, d) := by
  have hchain : w.timesChain = v.timesChain := by
    cases c with
    | R => cases h; rfl
    | C =>
        unfold ChronoVars.switch at h
        simp only at h
        split at h
        · cases congrArg (Option.map Prod.fst) h
          rfl
        · cases congrArg (Option.map Prod.fst) h
          rfl
    | I => cases h; rfl
    | E => cases h; rfl
    | F => cases h
  unfold ChronoVars.shows ChronoVars.turn
  rw [h]
  simp only [Option.map_some, if_true, convert_eq_face, hchain, hd]

theorem shows_none {c : ChronoCommand} {w : ChronoVars} {d : Option MenageHmsh_tChain11}
    (h : v.switch c = some (w, false)) (hd : d = none) : v.shows c = some (w, d) := by
  unfold ChronoVars.shows ChronoVars.turn
  rw [h, hd]
  rfl

/-- A unit, outside an intermediate time. -/
theorem switch_unit (hoff : v.Intermediatetimes = false) :
    v.switch .C = some ({ v with times := (MenageHmsh_PlusOneUnit v.times).1 },
      decide ((v.times.count + 1) % 100 = 0)) := by
  unfold ChronoVars.switch
  simp only [hoff, Bool.false_eq_true, if_false, plusOneUnit_carry]

/-- A unit, while an intermediate time is on the display: it is shown if it is the last. -/
theorem switch_frozen (hon : v.Intermediatetimes = true) :
    v.switch .C =
      let last := decide ((v.times.count + 1) % day = v.endIntermediateTimes.count)
      some ({ v with
        times := (MenageHmsh_PlusOneUnit v.times).1
        Intermediatetimes := !last
        hundredthes := false }, last) := by
  have hlast : MenageHmsh_Equal (MenageHmsh_PlusOneUnit v.times).1 v.endIntermediateTimes =
      decide ((v.times.count + 1) % day = v.endIntermediateTimes.count) := by
    rw [Bool.eq_iff_iff, equal_iff, plusOneUnit_count, decide_eq_true_iff]
  unfold ChronoVars.switch
  simp only [hon, if_true, hlast, Bool.not_not]

/-- The time of day after one more unit. -/
theorem Following.next_count {s : ChronoStatus} (h : Following first start s p v) :
    (v.times.count + 1) % day = (elapsed start p + 1) % day := by
  rw [h.times, Nat.mod_add_mod]

/-- A day is a whole number of seconds. -/
theorem second_of_day (n : Nat) : (n % day + 1) % 100 = (n + 1) % 100 := by
  unfold day
  omega

/-- A unit outside an intermediate time shows the hour if it completes a second. -/
theorem Following.unit_over {s : ChronoStatus} (h : Following first start s p v)
    (free : ∀ k, frozenFor p = some k → 300 ≤ k) (off : v.Intermediatetimes = false)
    (plain : v.hundredthes = false) :
    ∃ v', v.shows .C = some (v', specChain first start p .C) ∧
      Following first start .running (p ++ [.C]) v' := by
  have hswitch := switch_unit off
  have hsecond : (v.times.count + 1) % 100 = (elapsed start p + 1) % 100 := by
    rw [h.times, second_of_day]
  have hspec : chronoSpec start p .C =
      if (elapsed start p + 1) % 100 = 0 then some (elapsed start p + 1, false) else none := by
    unfold chronoSpec
    cases hf : frozenFor p with
    | none => simp
    | some k =>
        have hk := free k hf
        have hne : ¬ k + 1 < 300 := by omega
        have hne' : ¬ k = 299 := by omega
        simp [hne, hne']
  have hfree' : ∀ k, frozenFor (p ++ [.C]) = some k → 300 ≤ k := by
    intro k hk
    rw [frozenFor_concat] at hk
    obtain ⟨k', hk', rfl⟩ := Option.map_eq_some_iff.mp hk
    have := free k' hk'
    omega
  have htimes : (MenageHmsh_PlusOneUnit v.times).1.count =
      elapsed start (p ++ [.C]) % day := by
    rw [plusOneUnit_count, h.next_count, elapsed_concat]
    rfl
  by_cases hcarry : (elapsed start p + 1) % 100 = 0
  · rw [decide_eq_true (hsecond.trans hcarry)] at hswitch
    refine ⟨_, shows_some hswitch ?_, h.first, htimes, .inr (.over hfree' off plain)⟩
    rw [specChain, hspec, if_pos hcarry, Option.map_some]
    simp only [h.first, plain, plusOneUnit_count, h.next_count]
  · rw [decide_eq_false (fun hc => hcarry (hsecond.symm.trans hc))] at hswitch
    refine ⟨_, shows_none hswitch ?_, h.first, htimes, .inr (.over hfree' off plain)⟩
    rw [specChain, hspec, if_neg hcarry, Option.map_none]

/-- A unit of an intermediate time shows the hour if it is the three hundredth. -/
theorem Following.unit_holds {s : ChronoStatus} (h : Following first start s p v) {k : Nat}
    (frozen : frozenFor p = some k) (short : k < 300) (on : v.Intermediatetimes = true)
    (ends : v.endIntermediateTimes.count = (elapsed start p + (300 - k)) % day) :
    ∃ v', v.shows .C = some (v', specChain first start p .C) ∧
      Following first start .running (p ++ [.C]) v' := by
  have hswitch := switch_frozen on
  have hlast : (v.times.count + 1) % day = v.endIntermediateTimes.count ↔ k = 299 := by
    rw [h.next_count, ends]
    unfold day
    omega
  have hfrozen' : frozenFor (p ++ [.C]) = some (k + 1) := by
    rw [frozenFor_concat, frozen]
    rfl
  have helapsed' : elapsed start (p ++ [.C]) = elapsed start p + 1 := by
    rw [elapsed_concat]
    rfl
  have htimes : (MenageHmsh_PlusOneUnit v.times).1.count =
      elapsed start (p ++ [.C]) % day := by
    rw [plusOneUnit_count, h.next_count, helapsed']
  by_cases h299 : k = 299
  · rw [decide_eq_true (hlast.mpr h299)] at hswitch
    have hspec : chronoSpec start p .C = some (elapsed start p + 1, false) := by
      unfold chronoSpec
      simp [frozen, h299]
    refine ⟨_, shows_some hswitch ?_, h.first, htimes, .inr (.over ?_ rfl rfl)⟩
    · rw [specChain, hspec, Option.map_some]
      simp only [h.first, plusOneUnit_count, h.next_count]
    · intro k' hk'
      rw [hfrozen'] at hk'
      cases hk'
      omega
  · rw [decide_eq_false (fun hc => h299 (hlast.mp hc))] at hswitch
    have hspec : chronoSpec start p .C = none := by
      unfold chronoSpec
      have hlt : k + 1 < 300 := by omega
      simp [frozen, hlt]
    refine ⟨_, shows_none hswitch ?_, h.first, htimes,
      .inr (.holds (k + 1) hfrozen' (by omega) rfl ?_)⟩
    · rw [specChain, hspec, Option.map_none]
    · rw [helapsed']
      exact ends.trans (congrArg (· % day) (by omega))

/-- Every command of the language shows what it should, and the loop goes on following. -/
theorem Following.next {s s' : ChronoStatus} {c : ChronoCommand}
    (h : Following first start s p v) (hs : s.next c = some s') :
    ∃ v', v.shows c = some (v', specChain first start p c) ∧
      Following first start s' (p ++ [c]) v' := by
  cases c with
  | C =>
      have hs' : s ≠ .stoppedFinal ∧ s' = .running := by
        cases s <;> cases hs <;> exact ⟨nofun, rfl⟩
      obtain ⟨hstop, rfl⟩ := hs'
      rcases h.freeze.resolve_left hstop with ⟨k, frozen, short, on, ends⟩ | ⟨free, off, plain⟩
      · exact h.unit_holds frozen short on ends
      · exact h.unit_over free off plain
  | I =>
      have helapsed : elapsed start (p ++ [.I]) = elapsed start p := by rw [elapsed_concat]; rfl
      have hs' : s' = .running := by
        cases s <;> cases hs
        rfl
      have hfrozen : frozenFor (p ++ [.I]) = some 0 := by rw [frozenFor_concat]; rfl
      refine ⟨_, shows_some rfl ?_, h.first, ?_,
        .inr (.holds 0 hfrozen (by decide) rfl ?_)⟩
      · rw [specChain, chronoSpec, Option.map_some, h.first, h.times]
      · rw [helapsed]
        exact h.times
      · rw [plusNSeconds_count, h.times, Nat.mod_add_mod, helapsed]
  | E =>
      have helapsed : elapsed start (p ++ [.E]) = elapsed start p := by rw [elapsed_concat]; rfl
      have hs' : s' = .stoppedFinal := by
        cases s <;> cases hs
        rfl
      refine ⟨_, shows_some rfl ?_, h.first, ?_, .inl hs'⟩
      · rw [specChain, chronoSpec, Option.map_some, h.first, h.times]
      · rw [helapsed]
        exact h.times
  | R =>
      have helapsed : elapsed start (p ++ [.R]) = 0 := by rw [elapsed_concat]; rfl
      have hfrozen : frozenFor (p ++ [.R]) = none := by rw [frozenFor_concat]; rfl
      refine ⟨_, shows_some rfl ?_, h.first, ?_, .inr (.over ?_ rfl rfl)⟩
      · rw [specChain, chronoSpec, Option.map_some, h.first]
        simp only [Nat.zero_mod, initialise_count]
      · rw [helapsed, Nat.zero_mod]
        exact initialise_count
      · intro k hk
        rw [hfrozen] at hk
        cases hk
  | F => cases s <;> cases hs

/-! ## The language -/

/-- The statuses that the commands lead through. -/
def ChronoStatus.follow (s : ChronoStatus) : List ChronoCommand → Option ChronoStatus
  | [] => some s
  | c :: w => (s.next c).bind fun s' => s'.follow w

theorem ChronoStatus.follow_append (s : ChronoStatus) (u w : List ChronoCommand) :
    s.follow (u ++ w) = (s.follow u).bind fun s' => s'.follow w := by
  induction u generalizing s with
  | nil => rfl
  | cons c u ih =>
      rw [List.cons_append, follow, follow]
      cases s.next c with
      | none => rfl
      | some s' => exact ih s'

theorem follow_steps {u : List ChronoCommand} (h : u ∈ chronoStep∗) :
    ChronoStatus.running.follow u = some .running := by
  obtain ⟨l, rfl, hl⟩ := Language.mem_kstar.mp h
  clear h
  induction l with
  | nil => rfl
  | cons x l ih =>
      have hx : x = [.C] ∨ x = [.I] := hl x List.mem_cons_self
      have hrest := ih fun y hy => hl y (List.mem_cons_of_mem _ hy)
      rcases hx with rfl | rfl
      · exact hrest
      · exact hrest

theorem follow_round {w : List ChronoCommand} (h : w ∈ chronoRound) :
    ChronoStatus.stoppedInitial.follow w = some .stoppedInitial := by
  obtain ⟨x, hx, _, rfl, rfl⟩ := Language.mem_mul.mp h
  obtain ⟨y, hy, _, rfl, rfl⟩ := Language.mem_mul.mp hx
  obtain ⟨_, rfl, u, hu, rfl⟩ := Language.mem_mul.mp hy
  have hrun : ChronoStatus.stoppedInitial.follow ([.C] ++ u) = some .running := follow_steps hu
  rw [ChronoStatus.follow_append, ChronoStatus.follow_append, hrun]
  rfl

theorem follow_word {w : List ChronoCommand} (h : w ∈ chronoRound∗) :
    ChronoStatus.stoppedInitial.follow w = some .stoppedInitial := by
  obtain ⟨l, rfl, hl⟩ := Language.mem_kstar.mp h
  clear h
  induction l with
  | nil => rfl
  | cons x l ih =>
      have hrest := ih fun y hy => hl y (List.mem_cons_of_mem _ hy)
      rw [List.flatten_cons, ChronoStatus.follow_append, follow_round (hl x List.mem_cons_self)]
      exact hrest

/-! ## The run -/

theorem loop_concat (v : ChronoVars) (p : List ChronoCommand) (c : ChronoCommand) :
    v.loop (p ++ [c]) = (v.loop p).bind fun v => (v.shows c).map Prod.fst := by
  induction p generalizing v with
  | nil =>
      rw [List.nil_append, ChronoVars.loop, ChronoVars.loop, Option.bind_some]
      cases v.shows c <;> rfl
  | cons c' p ih =>
      rw [List.cons_append, ChronoVars.loop, ChronoVars.loop]
      cases v.shows c' with
      | none => rfl
      | some s => exact ih s.1

/-- After the commands of a status the loop stands as they say. -/
theorem loop_follows (v₀ : ChronoVars) (hour : MenageHmsh_tHour) (p : List ChronoCommand)
    (s : ChronoStatus) (h : ChronoStatus.stoppedInitial.follow p = some s) :
    ∃ v, (v₀.reset hour).loop p = some v ∧
      Following (v₀.timesChain 0) hour.count s p v := by
  induction p using List.reverseRecOn generalizing s with
  | nil =>
      cases h
      refine ⟨_, rfl, rfl, ?_, .inr (.over nofun rfl rfl)⟩
      exact (Nat.mod_eq_of_lt (count_lt hour)).symm
  | append_singleton p c ih =>
      rw [ChronoStatus.follow_append] at h
      obtain ⟨s', hp, hc⟩ := Option.bind_eq_some_iff.mp h
      obtain ⟨v, hloop, hfollow⟩ := ih s' hp
      have hnext : s'.next c = some s := by
        simpa [ChronoStatus.follow] using hc
      obtain ⟨v', hshows, hfollow'⟩ := hfollow.next hnext
      refine ⟨v', ?_, hfollow'⟩
      rw [loop_concat, hloop, Option.bind_some, hshows]
      rfl

/-- The loop begins with `R`, which shows zero; after that, whatever the hour it begins at,
every command of the language shows what `chronoSpec` says. -/
theorem chronometer_shows (v₀ : ChronoVars) (hour : MenageHmsh_tHour) (w p : List ChronoCommand)
    (c : ChronoCommand) (hw : w ∈ chronoRound∗) (hp : p ++ [c] <+: w) :
    v₀.shows .R = some (v₀.reset MenageHmsh_Initialise, some (face (v₀.timesChain 0) 0 false)) ∧
      (v₀.reset hour).shown p c = some (specChain (v₀.timesChain 0) hour.count p c) := by
  refine ⟨?_, ?_⟩
  · have hswitch : v₀.switch .R = some ({ v₀ with
        times := MenageHmsh_Initialise, hundredthes := false, Intermediatetimes := false }, true) :=
      rfl
    rw [shows_some hswitch rfl]
    simp only [initialise_count, ChronoVars.reset]
  · obtain ⟨rest, rfl⟩ := hp
    have hword := follow_word hw
    rw [List.append_assoc, ChronoStatus.follow_append] at hword
    obtain ⟨s, hfollow, hrest⟩ := Option.bind_eq_some_iff.mp hword
    obtain ⟨s', hnext, -⟩ := Option.bind_eq_some_iff.mp hrest
    obtain ⟨v, hloop, hv⟩ := loop_follows v₀ hour p s hfollow
    obtain ⟨v', hshows, -⟩ := hv.next hnext
    unfold ChronoVars.shown
    rw [hloop, Option.bind_some, hshows]
    rfl

/-- Half a second to midnight. -/
def lateHour : MenageHmsh_tHour := ⟨23, 59, 59, 50, by decide, by decide, by decide, by decide⟩

/-- The variables before anything is assigned to them. -/
def lateVars : ChronoVars := ⟨lateHour, fun _ => ' ', false, lateHour, false⟩

theorem chronometer_shows_late :
    lateVars.shows .R =
        some (lateVars.reset MenageHmsh_Initialise, some (face (lateVars.timesChain 0) 0 false)) ∧
      (lateVars.reset lateHour).shown [.C, .I] .E =
        some (specChain (lateVars.timesChain 0) lateHour.count [.C, .I] .E) := by
  have hrun : [.C] ∈ ChronoStatus.running.told :=
    ChronoStatus.told_next (s := .stoppedInitial) rfl (Language.nil_mem_kstar _)
  have hfrozen : [.C, .I] ∈ ChronoStatus.running.told := ChronoStatus.told_next rfl hrun
  have hfinal : [.C, .I, .E] ∈ ChronoStatus.stoppedFinal.told := ChronoStatus.told_next rfl hfrozen
  have hinitial : [.C, .I, .E, .R] ∈ ChronoStatus.stoppedInitial.told :=
    ChronoStatus.told_next rfl hfinal
  have hword : [.C, .I, .E, .R] ∈ chronoRound∗ := hinitial
  exact chronometer_shows lateVars lateHour [.C, .I, .E, .R] [.C, .I] .E hword ⟨[.R], rfl⟩

end RtaiDemos.Clock
