import RtaiDemos.Clock.Logic.SemDisplay

/-!
# The display buffer

For any tasks and any calls: the units of `notEmpty` match the full slots, no
`Display_Get` finds both slots empty, and each returns the chain that was put
last into its slot, which no other returns. For the program: the terminating
chain stays until it is returned, and nothing else is taken for it.
-/

namespace RtaiDemos.Clock.SemDisplay

open Tasks

/-! ## Any calls -/

section

variable {T : Type} [Fintype T] [DecidableEq T]

/-- What a run of any calls shows. -/
structure Balanced (σ : State T) : Prop where
  balance : 0 < σ.mutex → σ.notEmpty + σ.passed = σ.fulls
  found : ∀ t, σ.pc t ≠ .getUnlock none
  returned : ∃ rs : List Taken, σ.returned = rs.map some ∧
    (∀ r ∈ rs, 0 < r.count ∧ (σ.puts r.slot)[r.count - 1]? = some r.chain) ∧
    rs.Pairwise fun r r' => r.slot = r'.slot → r.count < r'.count

omit [DecidableEq T] in
/-- The data as the holder of the mutex has it, or as it is when it is free. -/
theorem Inv.data {σ : State T} (h : Inv σ) : ∃ pc, Data σ pc ∧ (0 < σ.mutex → pc = .idle) ∧
    (pc = .idle ∨ ∃ t, σ.pc t = pc) := by
  cases h with
  | free hmutex hout hdata => exact ⟨.idle, hdata, fun _ => rfl, .inl rfl⟩
  | held t hmutex hin hout hdata => exact ⟨σ.pc t, hdata, fun hpos => by omega, .inr ⟨t, rfl⟩⟩

theorem Inv.balanced {σ : State T} (h : Inv σ) : Balanced σ := by
  obtain ⟨pc, hdata, hfree, _⟩ := h.data
  refine ⟨?_, ?_, ?_⟩
  · intro hpos
    have hbalance := hdata.balance
    rw [hfree hpos] at hbalance
    exact hbalance
  · intro t hpc
    have hhere := (h.holder (t := t) (by rw [hpc]; rfl)).2.2.here
    rw [hpc] at hhere
    exact hhere rfl
  · have hbegins : σ.returned <+: σ.taken.map some := by
      rw [hdata.returned]
      exact List.prefix_append _ _
    obtain ⟨n, hn⟩ : ∃ n, σ.returned = (σ.taken.take n).map some := by
      refine ⟨σ.returned.length, ?_⟩
      rw [List.map_take]
      exact List.prefix_iff_eq_take.mp hbegins
    refine ⟨σ.taken.take n, hn, ?_, ?_⟩
    · intro r hr
      exact hdata.latest r (List.mem_of_mem_take hr)
    · exact hdata.order.sublist (List.take_sublist _ _)

theorem inv_invariant : (machine T).Invariant Inv := by
  refine TSys.Invariant.of_inductive ?_ fun σ σ' l h hstep => h.step hstep
  rintro σ ⟨slot, rfl⟩
  exact .init slot

end

/-! ## The tasks of the program -/

section

variable {T : Type} [DecidableEq T] {σ σ' : State T} {t : T}

/-- A task that only puts into `d`, chains of which `P` holds. -/
def Putting (d : Slot) (P : MenageHmsh_tChain11 → Prop) (σ : State T) : Pc → Prop
  | .idle | .putSignal | .putUnlock => True
  | .putWait d' chain | .putCopy d' chain => d' = d ∧ P chain
  | .putMark d' => d' = d ∧ P (σ.slot d)
  | .putTest d' | .putFill d' => d' = d
  | _ => False

/-- A task that only gets. -/
def Getting (σ : State T) : Pc → Prop
  | .idle | .getWait | .getLock | .getTest | .getTake _ | .getClear _ _ | .getUnlock _ => True
  | .got r => r ∈ σ.returned
  | _ => False

/-- A chain is called for and not yet in its slot. -/
def Pc.before : Pc → Bool
  | .putWait _ _ | .putCopy _ _ | .putMark _ => true
  | _ => false

omit [DecidableEq T] in
theorem Putting.congr {d : Slot} {P : MenageHmsh_tChain11 → Prop} {pc : Pc}
    (h : Putting d P σ pc) (hslot : σ'.slot d = σ.slot d) : Putting d P σ' pc := by
  cases pc with
  | putMark d' => exact ⟨h.1, by rw [hslot]; exact h.2⟩
  | idle => trivial
  | putWait d' chain => exact h
  | putCopy d' chain => exact h
  | putTest d' => exact h
  | putFill d' => exact h
  | putSignal => trivial
  | putUnlock => trivial
  | getWait => exact h
  | getLock => exact h
  | getTest => exact h
  | getTake d' => exact h
  | getClear d' chain => exact h
  | getUnlock r => exact h
  | got r => exact h

omit [DecidableEq T] in
theorem Getting.congr {pc : Pc} (h : Getting σ pc) (hreturned : σ'.returned = σ.returned) :
    Getting σ' pc := by
  unfold Getting at h ⊢
  rw [hreturned]
  exact h

/-- What a statement of a putter changes, `pc` being the next one. -/
structure PutStep (d : Slot) (P : MenageHmsh_tChain11 → Prop) (t : T) (σ σ' : State T) (pc : Pc) :
    Prop where
  moved : σ'.pc = Function.update σ.pc t pc
  role : Putting d P σ' pc
  slot : ∀ d', d' ≠ d → σ'.slot d' = σ.slot d'
  puts : (σ'.puts = σ.puts ∧ pc.before = (σ.pc t).before) ∨
    ((σ.pc t).before = true ∧ pc.before = false ∧ P (σ.slot d) ∧
      σ'.puts = Function.update σ.puts d (σ.puts d ++ [d.mark (σ.slot d)]))
  returned : σ'.returned = σ.returned

theorem Putting.exec {d : Slot} {P : MenageHmsh_tChain11 → Prop} (h : Putting d P σ (σ.pc t))
    (hstep : exec σ t = some σ') : ∃ pc, PutStep d P t σ σ' pc := by
  unfold SemDisplay.exec Display_Put at hstep
  cases hpc : σ.pc t with
  | putWait d' chain =>
      rw [hpc] at h hstep
      by_cases hpos : 0 < σ.mutex
      · simp only [hpos, if_true] at hstep
        cases hstep
        exact ⟨_, rfl, h, fun _ _ => rfl, .inl ⟨rfl, by rw [hpc]; rfl⟩, rfl⟩
      · simp only [hpos, if_false, Display_Get, hpc] at hstep
        cases hstep
  | putCopy d' chain =>
      rw [hpc] at h hstep
      obtain ⟨rfl, hP⟩ := h
      cases hstep
      refine ⟨_, rfl, ⟨rfl, ?_⟩, ?_, .inl ⟨rfl, by rw [hpc]; rfl⟩, rfl⟩
      · show P (Function.update σ.slot d' chain d')
        rw [Function.update_self]
        exact hP
      · intro d hd
        exact Function.update_of_ne hd _ _
  | putMark d' =>
      rw [hpc] at h hstep
      obtain ⟨rfl, hP⟩ := h
      cases hstep
      refine ⟨_, rfl, rfl, ?_, .inr ⟨by rw [hpc]; rfl, rfl, hP, rfl⟩, rfl⟩
      intro d hd
      exact Function.update_of_ne hd _ _
  | putTest d' =>
      rw [hpc] at h hstep
      obtain rfl : d' = d := h
      cases hstep
      by_cases hempty : σ.status d' = .empty
      · rw [if_pos hempty]
        exact ⟨_, rfl, rfl, fun _ _ => rfl, .inl ⟨rfl, by rw [hpc]; rfl⟩, rfl⟩
      · rw [if_neg hempty]
        exact ⟨_, rfl, trivial, fun _ _ => rfl, .inl ⟨rfl, by rw [hpc]; rfl⟩, rfl⟩
  | putFill d' =>
      rw [hpc] at hstep
      cases hstep
      exact ⟨_, rfl, trivial, fun _ _ => rfl, .inl ⟨rfl, by rw [hpc]; rfl⟩, rfl⟩
  | putSignal =>
      rw [hpc] at hstep
      cases hstep
      exact ⟨_, rfl, trivial, fun _ _ => rfl, .inl ⟨rfl, by rw [hpc]; rfl⟩, rfl⟩
  | putUnlock =>
      rw [hpc] at hstep
      cases hstep
      exact ⟨_, rfl, trivial, fun _ _ => rfl, .inl ⟨rfl, by rw [hpc]; rfl⟩, rfl⟩
  | idle =>
      rw [hpc] at hstep
      simp only [Display_Get, hpc] at hstep
      cases hstep
  | getWait => rw [hpc] at h; exact h.elim
  | getLock => rw [hpc] at h; exact h.elim
  | getTest => rw [hpc] at h; exact h.elim
  | getTake d' => rw [hpc] at h; exact h.elim
  | getClear d' chain => rw [hpc] at h; exact h.elim
  | getUnlock r => rw [hpc] at h; exact h.elim
  | got r => rw [hpc] at h; exact h.elim

/-- What a statement of a getter changes. -/
structure GetStep (t : T) (σ σ' : State T) (pc : Pc) : Prop where
  moved : σ'.pc = Function.update σ.pc t pc
  role : Getting σ' pc
  going : ∀ r, σ.pc t ≠ .got r
  slot : σ'.slot = σ.slot
  puts : σ'.puts = σ.puts

theorem Getting.exec (h : Getting σ (σ.pc t)) (hstep : exec σ t = some σ') :
    ∃ pc, GetStep t σ σ' pc := by
  have hput : Display_Put σ t = none := by
    unfold Display_Put
    cases hpc : σ.pc t <;> rw [hpc] at h <;> first | rfl | exact h.elim
  unfold SemDisplay.exec at hstep
  rw [hput] at hstep
  simp only [Display_Get] at hstep
  cases hpc : σ.pc t with
  | getWait =>
      rw [hpc] at hstep
      by_cases hpos : 0 < σ.notEmpty
      · simp only [hpos, if_true] at hstep
        cases hstep
        exact ⟨_, rfl, trivial, by rw [hpc]; simp, rfl, rfl⟩
      · simp only [hpos, if_false] at hstep
        cases hstep
  | getLock =>
      rw [hpc] at hstep
      by_cases hpos : 0 < σ.mutex
      · simp only [hpos, if_true] at hstep
        cases hstep
        exact ⟨_, rfl, trivial, by rw [hpc]; simp, rfl, rfl⟩
      · simp only [hpos, if_false] at hstep
        cases hstep
  | getTest =>
      rw [hpc] at hstep
      cases hstep
      refine ⟨_, rfl, ?_, by rw [hpc]; simp, rfl, rfl⟩
      split
      · trivial
      · split
        · trivial
        · trivial
  | getTake d =>
      rw [hpc] at hstep
      cases hstep
      exact ⟨_, rfl, trivial, by rw [hpc]; simp, rfl, rfl⟩
  | getClear d chain =>
      rw [hpc] at hstep
      cases hstep
      exact ⟨_, rfl, trivial, by rw [hpc]; simp, rfl, rfl⟩
  | getUnlock r =>
      rw [hpc] at hstep
      cases hstep
      refine ⟨_, rfl, ?_, by rw [hpc]; simp, rfl, rfl⟩
      show r ∈ σ.returned ++ [r]
      simp
  | idle =>
      rw [hpc] at hstep
      cases hstep
  | got r =>
      rw [hpc] at hstep
      cases hstep
  | putWait d chain => rw [hpc] at h; exact h.elim
  | putCopy d chain => rw [hpc] at h; exact h.elim
  | putMark d => rw [hpc] at h; exact h.elim
  | putTest d => rw [hpc] at h; exact h.elim
  | putFill d => rw [hpc] at h; exact h.elim
  | putSignal => rw [hpc] at h; exact h.elim
  | putUnlock => rw [hpc] at h; exact h.elim

end

/-! ## The program -/

instance : Fintype Task := ⟨{.clock, .chrono, .write}, fun t => by cases t <;> simp⟩

/-- What the clock put last, once it has put the terminating chain. -/
def Program.lastPut (σ : Program) : List MenageHmsh_tChain11 :=
  if σ.clockOver && !(σ.display.pc .clock).before then [Slot.hour.mark σ.clock.hourChain] else []

/-- What holds of the program in every run. -/
structure Ok (σ : Program) : Prop where
  inv : Inv σ.display
  clock : Putting .hour (· = σ.clock.hourChain) σ.display (σ.display.pc .clock)
  chrono : Putting .times (fun chain => chain 1 ≠ sentinel) σ.display (σ.display.pc .chrono)
  write : Getting σ.display (σ.display.pc .write)
  closing : σ.clockOver = true → σ.clock.hourChain 1 = sentinel
  going : σ.clockOver = false → (σ.display.pc .clock).before = true →
    σ.clock.hourChain 1 ≠ sentinel
  times : ∀ chain ∈ σ.display.puts .times, chain 1 ≠ sentinel
  hour : ∃ ps, σ.display.puts .hour = ps ++ σ.lastPut ∧ ∀ chain ∈ ps, chain 1 ≠ sentinel
  wrote : σ.writeOver = true →
    ∃ r, σ.display.pc .write = .got (some r) ∧ r.chain 1 = sentinel

theorem mark_one (d : Slot) (chain : MenageHmsh_tChain11) : d.mark chain 1 = chain 1 :=
  Function.update_of_ne (by decide) _ _

variable {σ σ' : Program}

theorem Program.lastPut_display {d : State Task}
    (hpc : (d.pc .clock).before = (σ.display.pc .clock).before) :
    ({ σ with display := d } : Program).lastPut = σ.lastPut := by
  unfold Program.lastPut
  rw [hpc]

/-- A statement of the clock in the display. -/
theorem Ok.clockRun (h : Ok σ) {d : State Task} (hstep : exec σ.display .clock = some d) :
    Ok { σ with display := d } := by
  obtain ⟨pc, hmoved, hrole, hslot, hputs, hreturned⟩ := h.clock.exec hstep
  have hclock : d.pc .clock = pc := by rw [hmoved, Function.update_self]
  have hchrono : d.pc .chrono = σ.display.pc .chrono := by
    rw [hmoved, Function.update_of_ne (by decide)]
  have hwrite : d.pc .write = σ.display.pc .write := by
    rw [hmoved, Function.update_of_ne (by decide)]
  refine ⟨h.inv.exec hstep, ?_, ?_, ?_, h.closing, ?_, ?_, ?_, ?_⟩
  · rw [hclock]
    exact hrole
  · rw [hchrono]
    exact h.chrono.congr (hslot .times (by decide))
  · rw [hwrite]
    exact h.write.congr hreturned
  · intro hover hbefore
    refine h.going hover ?_
    rw [hclock] at hbefore
    rcases hputs with ⟨_, hsame⟩ | ⟨_, hnot, _⟩
    · rw [← hsame]
      exact hbefore
    · rw [hnot] at hbefore
      cases hbefore
  · rcases hputs with ⟨hputs, _⟩ | ⟨_, _, _, hputs⟩
    · rw [hputs]
      exact h.times
    · rw [hputs, Function.update_of_ne (by decide)]
      exact h.times
  · obtain ⟨ps, hps, hall⟩ := h.hour
    rcases hputs with ⟨hputs, hsame⟩ | ⟨hbefore, hnot, hchain, hputs⟩
    · refine ⟨ps, ?_, hall⟩
      rw [hputs, Program.lastPut_display (by rw [hclock]; exact hsame)]
      exact hps
    · have hlast : σ.lastPut = [] := by
        unfold Program.lastPut
        rw [hbefore]
        simp
      rw [hlast, List.append_nil] at hps
      show ∃ ps, d.puts .hour = _ ∧ _
      rw [hputs, Function.update_self, hps, hchain]
      unfold Program.lastPut
      rw [hclock, hnot]
      cases hover : σ.clockOver with
      | true => exact ⟨ps, rfl, hall⟩
      | false =>
          refine ⟨ps ++ [Slot.hour.mark σ.clock.hourChain], by simp, ?_⟩
          intro chain hmem
          rcases List.mem_append.mp hmem with hmem | hmem
          · exact hall chain hmem
          · rw [List.mem_singleton.mp hmem, mark_one]
            exact h.going hover hbefore
  · rw [hwrite]
    exact h.wrote

/-- A statement of the chronometer in the display. -/
theorem Ok.chronoRun (h : Ok σ) {d : State Task} (hstep : exec σ.display .chrono = some d) :
    Ok { σ with display := d } := by
  obtain ⟨pc, hmoved, hrole, hslot, hputs, hreturned⟩ := h.chrono.exec hstep
  have hchrono : d.pc .chrono = pc := by rw [hmoved, Function.update_self]
  have hclock : d.pc .clock = σ.display.pc .clock := by
    rw [hmoved, Function.update_of_ne (by decide)]
  have hwrite : d.pc .write = σ.display.pc .write := by
    rw [hmoved, Function.update_of_ne (by decide)]
  have hhour : d.puts .hour = σ.display.puts .hour := by
    rcases hputs with ⟨hputs, _⟩ | ⟨_, _, _, hputs⟩
    · rw [hputs]
    · rw [hputs, Function.update_of_ne (by decide)]
  refine ⟨h.inv.exec hstep, ?_, ?_, ?_, h.closing, ?_, ?_, ?_, ?_⟩
  · rw [hclock]
    exact h.clock.congr (hslot .hour (by decide))
  · rw [hchrono]
    exact hrole
  · rw [hwrite]
    exact h.write.congr hreturned
  · rw [hclock]
    exact h.going
  · rcases hputs with ⟨hputs, _⟩ | ⟨_, _, hchain, hputs⟩
    · rw [hputs]
      exact h.times
    · rw [hputs, Function.update_self]
      intro chain hmem
      rcases List.mem_append.mp hmem with hmem | hmem
      · exact h.times chain hmem
      · rw [List.mem_singleton.mp hmem, mark_one]
        exact hchain
  · rw [hhour, Program.lastPut_display (by rw [hclock])]
    exact h.hour
  · rw [hwrite]
    exact h.wrote

/-- A statement of `Write` in the display. -/
theorem Ok.writeRun (h : Ok σ) {d : State Task} (hstep : exec σ.display .write = some d) :
    Ok { σ with display := d } := by
  obtain ⟨pc, hmoved, hrole, hgoing, hslot, hputs⟩ := h.write.exec hstep
  have hwrite : d.pc .write = pc := by rw [hmoved, Function.update_self]
  have hclock : d.pc .clock = σ.display.pc .clock := by
    rw [hmoved, Function.update_of_ne (by decide)]
  have hchrono : d.pc .chrono = σ.display.pc .chrono := by
    rw [hmoved, Function.update_of_ne (by decide)]
  refine ⟨h.inv.exec hstep, ?_, ?_, ?_, h.closing, ?_, ?_, ?_, ?_⟩
  · rw [hclock]
    exact h.clock.congr (by rw [hslot])
  · rw [hchrono]
    exact h.chrono.congr (by rw [hslot])
  · rw [hwrite]
    exact hrole
  · rw [hclock]
    exact h.going
  · rw [hputs]
    exact h.times
  · rw [hputs, Program.lastPut_display (by rw [hclock])]
    exact h.hour
  · intro hover
    obtain ⟨r, hr, _⟩ := h.wrote hover
    exact absurd hr (hgoing _)

/-- A task other than the clock begins a call. -/
theorem Ok.begin (h : Ok σ) {t : Task} {c : Call} (hout : (σ.display.pc t).out = true)
    (ht : t = .chrono ∧ (∃ chain, c = .PutTimes chain ∧ chain 1 ≠ sentinel) ∨
      t = .write ∧ c = .Get ∧ σ.writeOver = false) :
    Ok { σ with display := σ.display.goto t c.pc } := by
  have hclock : (σ.display.goto t c.pc).pc .clock = σ.display.pc .clock := by
    apply goto_other
    rcases ht with ⟨rfl, _⟩ | ⟨rfl, _⟩
    · decide
    · decide
  refine ⟨h.inv.call hout, ?_, ?_, ?_, h.closing, ?_, h.times, ?_, ?_⟩
  · rw [hclock]
    exact h.clock.congr rfl
  · rcases ht with ⟨rfl, chain, rfl, hchain⟩ | ⟨rfl, _⟩
    · rw [goto_self]
      exact ⟨rfl, hchain⟩
    · rw [goto_other _ _ (by decide)]
      exact h.chrono.congr rfl
  · rcases ht with ⟨rfl, _⟩ | ⟨rfl, rfl, _⟩
    · rw [goto_other _ _ (by decide)]
      exact h.write.congr rfl
    · rw [goto_self]
      trivial
  · rw [hclock]
    exact h.going
  · rw [Program.lastPut_display (by rw [hclock])]
    exact h.hour
  · intro hover
    rcases ht with ⟨rfl, _⟩ | ⟨_, _, hnot⟩
    · rw [goto_other _ _ (by decide)]
      exact h.wrote hover
    · have hover : σ.writeOver = true := hover
      rw [hnot] at hover
      cases hover

/-- The clock takes a command. -/
theorem Ok.clockTurn (h : Ok σ) {command : ClockCommand}
    (hstep : ClockChrono_Clock σ command = some σ') : Ok σ' := by
  unfold ClockChrono_Clock at hstep
  split at hstep
  · cases hstep
  · rename_i hgo
    rw [not_or, Bool.not_eq_true, Bool.not_eq_false] at hgo
    obtain ⟨hover, hout⟩ := hgo
    have hnot : (σ.display.pc .clock).before = false := by
      cases hpc : σ.display.pc .clock <;> rw [hpc] at hout <;> first | rfl | cases hout
    have hplain : ∀ chain ∈ σ.display.puts .hour, chain 1 ≠ sentinel := by
      obtain ⟨ps, hps, hall⟩ := h.hour
      unfold Program.lastPut at hps
      rw [hover] at hps
      simp only [Bool.false_and, Bool.false_eq_true, if_false, List.append_nil] at hps
      rw [hps]
      exact hall
    obtain ⟨v, display, hturn⟩ : ∃ v display, σ.clock.turn command = (v, display) := ⟨_, _, rfl⟩
    rw [hturn] at hstep
    cases display with
    | true =>
        have hchain := ClockVars.turn_chain hturn
        cases hstep
        have hclock : (σ.display.goto .clock (Call.PutHour v.hourChain).pc).pc .clock =
            .putWait .hour v.hourChain := goto_self _ _ _
        have hother : ∀ t, t ≠ Task.clock →
            (σ.display.goto .clock (Call.PutHour v.hourChain).pc).pc t = σ.display.pc t := by
          intro t ht
          exact goto_other _ _ ht
        refine ⟨h.inv.call hout, ?_, ?_, ?_, ?_, ?_, h.times, ⟨_, ?_, hplain⟩, ?_⟩
        · show Putting _ _ _ ((σ.display.goto .clock _).pc .clock)
          rw [hclock]
          exact ⟨rfl, rfl⟩
        · show Putting _ _ _ ((σ.display.goto .clock _).pc .chrono)
          rw [hother _ (by decide)]
          exact h.chrono.congr rfl
        · show Getting _ ((σ.display.goto .clock _).pc .write)
          rw [hother _ (by decide)]
          exact h.write.congr rfl
        · intro hF
          rw [if_pos (of_decide_eq_true hF)] at hchain
          exact hchain
        · intro hF _
          rw [if_neg (of_decide_eq_false hF)] at hchain
          exact hchain
        · unfold Program.lastPut
          show σ.display.puts .hour = _ ++ if _ && !((σ.display.goto .clock _).pc .clock).before
            then _ else _
          rw [hclock]
          simp [Pc.before]
        · show _ → ∃ r, (σ.display.goto .clock _).pc .write = _ ∧ _
          rw [hother _ (by decide)]
          exact h.wrote
    | false =>
        have hF : command ≠ .F := by
          rintro rfl
          cases hturn
        have hchainSame : (σ.display.pc .clock).before = true → False := by
          rw [hnot]
          simp
        cases hstep
        refine ⟨h.inv, ?_, h.chrono, h.write, ?_, ?_, h.times, ⟨_, ?_, hplain⟩, h.wrote⟩
        · have hrole := h.clock
          show Putting _ (· = v.hourChain) σ.display (σ.display.pc .clock)
          cases hpc : σ.display.pc .clock <;> rw [hpc] at hout hrole <;> trivial
        · intro htrue
          exact absurd (of_decide_eq_true htrue) hF
        · intro _ hbefore
          exact (hchainSame hbefore).elim
        · unfold Program.lastPut
          simp [hF]

theorem Ok.chronoTurn (h : Ok σ) {command : ChronoCommand}
    (hstep : ClockChrono_Chrono σ command = some σ') : Ok σ' := by
  unfold ClockChrono_Chrono at hstep
  split at hstep
  · cases hstep
  · rename_i hgo
    rw [not_or, Bool.not_eq_true, Bool.not_eq_false] at hgo
    split at hstep
    · rename_i v display hturn
      cases hstep
      cases display with
      | true =>
          have hchain := ChronoVars.turn_chain hturn
          have hcall := h.begin hgo.2 (.inl ⟨rfl, v.timesChain, rfl, hchain⟩)
          exact ⟨hcall.inv, hcall.clock, hcall.chrono, hcall.write, hcall.closing, hcall.going,
            hcall.times, hcall.hour, hcall.wrote⟩
      | false =>
          exact ⟨h.inv, h.clock, h.chrono, h.write, h.closing, h.going, h.times, h.hour, h.wrote⟩
    · cases hstep
      exact ⟨h.inv, h.clock, h.chrono, h.write, h.closing, h.going, h.times, h.hour, h.wrote⟩

theorem Ok.writeTurn (h : Ok σ) (hstep : ClockChrono_Write σ = some σ') : Ok σ' := by
  unfold ClockChrono_Write at hstep
  split at hstep
  · cases hstep
  · rename_i hover
    rw [Bool.not_eq_true] at hover
    split at hstep
    · rename_i hpc
      cases hstep
      exact h.begin (by rw [hpc]; rfl) (.inr ⟨rfl, rfl, hover⟩)
    · rename_i r hpc
      split at hstep
      · rename_i hsentinel
        cases hstep
        exact ⟨h.inv, h.clock, h.chrono, h.write, h.closing, h.going, h.times, h.hour,
          fun _ => ⟨r, hpc, hsentinel⟩⟩
      · cases hstep
        exact h.begin (by rw [hpc]; rfl) (.inr ⟨rfl, rfl, hover⟩)
    · cases hstep

theorem Ok.step (h : Ok σ) {l : ProgramLabel} (hstep : Program.step σ l = some σ') : Ok σ' := by
  cases l with
  | clock command => exact h.clockTurn hstep
  | chrono command => exact h.chronoTurn hstep
  | write => exact h.writeTurn hstep
  | run t =>
      obtain ⟨d, hd, rfl⟩ := Option.map_eq_some_iff.mp hstep
      cases t with
      | clock => exact h.clockRun hd
      | chrono => exact h.chronoRun hd
      | write => exact h.writeRun hd

theorem ok_invariant : program.Invariant Ok := by
  refine TSys.Invariant.of_inductive ?_ fun σ σ' l h hstep => h.step hstep
  rintro σ ⟨slot, chain, v, v', hturn, rfl⟩
  have hstart : Ok
      { display := initState slot
        clock := ⟨MenageHmsh_Initialise, chain⟩
        clockOver := false
        chrono := v'
        chronoOver := false
        writeOver := false } := by
    refine ⟨.init slot, trivial, trivial, trivial, ?_, ?_, ?_, ⟨[], rfl, ?_⟩, ?_⟩
    · intro hover
      cases hover
    · intro _ hbefore
      cases hbefore
    · intro c hc
      cases hc
    · intro c hc
      cases hc
    · intro hover
      cases hover
  exact hstart.begin rfl (.inl ⟨rfl, v'.timesChain, rfl, ChronoVars.turn_chain hturn⟩)

/-! ## The terminating chain -/

/-- The terminating chain as it is in its slot, once the clock has put it. -/
def Program.terminating (σ : Program) : Taken :=
  ⟨.hour, (σ.display.puts .hour).length, Slot.hour.mark σ.clock.hourChain⟩

/-- The clock has put the terminating chain and left `Display_PutHour`. -/
def Program.clockDone (σ : Program) : Prop :=
  σ.clockOver = true ∧ σ.display.pc .clock = .idle

/-- Nobody but the clock is putting an hour. -/
theorem Ok.hour_quiet (h : Ok σ) (hdone : σ.clockDone) {pc : Pc}
    (hpc : pc = .idle ∨ ∃ t, σ.display.pc t = pc) :
    pc.filling ≠ some .hour ∧ pc.marking ≠ some .hour := by
  rcases hpc with rfl | ⟨t, rfl⟩
  · exact ⟨by simp [Pc.filling], by simp [Pc.marking]⟩
  · cases t with
    | clock =>
        rw [hdone.2]
        exact ⟨by simp [Pc.filling], by simp [Pc.marking]⟩
    | chrono =>
        have hrole := h.chrono
        refine ⟨?_, ?_⟩
        · intro hf
          cases hpc : σ.display.pc .chrono <;> rw [hpc] at hf hrole <;> cases hf <;> cases hrole
        · intro hf
          cases hpc : σ.display.pc .chrono <;> rw [hpc] at hf hrole <;> cases hf
          cases hrole.1
    | write =>
        have hrole := h.write
        refine ⟨?_, ?_⟩
        · intro hf
          cases hpc : σ.display.pc .write <;> rw [hpc] at hf hrole <;> cases hf <;> exact hrole
        · intro hf
          cases hpc : σ.display.pc .write <;> rw [hpc] at hf hrole <;> cases hf
          exact hrole

/-- Only `Write` returns chains. -/
theorem Ok.returning (h : Ok σ) {pc : Pc} {r : Taken}
    (hpc : pc = .idle ∨ ∃ t, σ.display.pc t = pc) (hr : some r ∈ pc.result) :
    σ.display.pc .write = .getUnlock (some r) := by
  have hunlock : pc = .getUnlock (some r) := by
    cases pc with
    | getUnlock r' => rw [← List.mem_singleton.mp hr]
    | _ => cases hr
  rcases hpc with he | ⟨t, he⟩
  · rw [hunlock] at he
    cases he
  · rw [hunlock] at he
    cases t with
    | clock =>
        have hrole := h.clock
        rw [he] at hrole
        exact hrole.elim
    | chrono =>
        have hrole := h.chrono
        rw [he] at hrole
        exact hrole.elim
    | write => exact he

/-- What looks like the terminating chain is it. -/
theorem Ok.unmistaken (h : Ok σ) (r : Taken) (hr : some r ∈ σ.display.returned)
    (hsentinel : r.chain 1 = sentinel) : σ.clockOver = true ∧ r = σ.terminating := by
  obtain ⟨pc, hdata, _, _⟩ := h.inv.data
  have hmem : r ∈ σ.display.taken := by
    have hsome : some r ∈ σ.display.taken.map some := by
      rw [hdata.returned]
      exact List.mem_append.mpr (.inl hr)
    obtain ⟨r', hr', he⟩ := List.mem_map.mp hsome
    cases he
    exact hr'
  obtain ⟨hpos, hget⟩ := hdata.latest r hmem
  have hput := List.mem_of_getElem? hget
  cases hslot : r.slot with
  | times =>
      rw [hslot] at hput
      exact absurd hsentinel (h.times _ hput)
  | hour =>
      rw [hslot] at hget hput
      obtain ⟨ps, hps, hall⟩ := h.hour
      have hnot : r.chain ∉ ps := fun hin => hall _ hin hsentinel
      have hlast : σ.clockOver = true ∧ σ.lastPut = [Slot.hour.mark σ.clock.hourChain] := by
        rw [hps] at hput
        rcases List.mem_append.mp hput with hin | hin
        · exact absurd hin hnot
        · unfold Program.lastPut at hin ⊢
          split at hin
          · rename_i hcond
            rw [if_pos hcond]
            exact ⟨(Bool.and_eq_true_iff.mp hcond).1, rfl⟩
          · cases hin
      rw [hlast.2] at hps
      have hcount : r.count - 1 = ps.length := by
        rw [hps] at hget
        have hlt := (List.getElem?_eq_some_iff.mp hget).1
        rw [List.length_append, List.length_singleton] at hlt
        by_contra hne
        rw [List.getElem?_append_left (by omega)] at hget
        exact hnot (List.mem_of_getElem? hget)
      refine ⟨hlast.1, ?_⟩
      rw [hps, hcount, List.getElem?_concat_length] at hget
      have hchain := Option.some.inj hget
      have hlen : r.count = (σ.display.puts .hour).length := by
        rw [hps, List.length_append, List.length_singleton]
        omega
      cases r
      cases hslot
      cases hlen
      cases hchain
      rfl

theorem Ok.stays (h : Ok σ) (hdone : σ.clockDone) :
    σ.display.status .hour = .full ∧ σ.display.slot .hour = σ.terminating.chain ∨
      σ.display.pc .write = .getUnlock (some σ.terminating) ∨
      some σ.terminating ∈ σ.display.returned := by
  obtain ⟨pc, hdata, _, hwhere⟩ := h.inv.data
  obtain ⟨hfilling, hmarking⟩ := h.hour_quiet hdone hwhere
  obtain ⟨ps, hps, _⟩ := h.hour
  have hlast : σ.lastPut = [σ.terminating.chain] := by
    unfold Program.lastPut
    rw [hdone.1, hdone.2]
    rfl
  rw [hlast] at hps
  have hne : σ.display.puts .hour ≠ [] := by
    rw [hps]
    simp
  cases hstatus : σ.display.status .hour with
  | full =>
      have hstored := hdata.stored .hour hmarking hne
      rw [hps, List.getLast?_concat] at hstored
      exact .inl ⟨rfl, (Option.some.inj hstored).symm⟩
  | empty =>
      have hnot : ¬ Pending σ.display pc .hour := by
        rintro (hf | hf)
        · rw [hstatus] at hf
          cases hf
        · exact hfilling hf
      obtain ⟨r, hr, hslot, hcount⟩ := hdata.last .hour hnot hne
      obtain ⟨hpos, hget⟩ := hdata.latest r hr
      have hr' : r = σ.terminating := by
        rw [hslot, hcount, ← List.getLast?_eq_getElem?, hps, List.getLast?_concat] at hget
        have hchain := Option.some.inj hget
        cases r
        cases hslot
        cases hcount
        cases hchain
        rfl
      have hmem : some r ∈ σ.display.returned ++ pc.result := by
        rw [← hdata.returned]
        exact List.mem_map_of_mem hr
      rw [hr'] at hmem
      rcases List.mem_append.mp hmem with hmem | hmem
      · exact .inr (.inr hmem)
      · exact .inr (.inl (h.returning hwhere hmem))

/-- In every run: any calls are balanced; the terminating chain, once put, stays
in its slot until `Write` gets it; and `Write` takes no other chain for it. -/
theorem display_buffer :
    (∀ (T : Type) [Fintype T] [DecidableEq T], (machine T).Invariant Balanced) ∧
    program.Invariant fun σ =>
      (σ.clockDone →
        σ.display.status .hour = .full ∧ σ.display.slot .hour = σ.terminating.chain ∨
          σ.display.pc .write = .getUnlock (some σ.terminating) ∨
          some σ.terminating ∈ σ.display.returned) ∧
      (∀ r, some r ∈ σ.display.returned → r.chain 1 = sentinel →
        σ.clockOver = true ∧ r = σ.terminating) ∧
      (σ.writeOver = true → some σ.terminating ∈ σ.display.returned) := by
  refine ⟨fun T _ _ σ hσ => (inv_invariant σ hσ).balanced, ?_⟩
  intro σ hσ
  have h := ok_invariant σ hσ
  refine ⟨h.stays, h.unmistaken, ?_⟩
  intro hover
  obtain ⟨r, hpc, hsentinel⟩ := h.wrote hover
  have hmem := h.write
  rw [hpc] at hmem
  have hmem : some r ∈ σ.display.returned := hmem
  rw [← (h.unmistaken r hmem hsentinel).2]
  exact hmem

end RtaiDemos.Clock.SemDisplay
