import RtaiDemos.Clock.MsgDisplay

/-!
# The terminating chain of the message version

It gets through to `Write` in every run in which, at the clock's last
`rt_send_if`, `Display_task` is waiting to receive or a pointer to the buffer
that now holds the chain is on its way to `Write`. Otherwise it may be dropped,
and `Display_task` and `Write` wait for ever.
-/

namespace RtaiDemos.Clock.MsgDisplay

/-- `Write` has the terminating chain, or gets it with a pointer on its way. -/
def OnItsWay (σ : State) : Prop :=
  σ.display = .send .hours ∨ σ.write = .copy .hours ∨
    (∃ chain, σ.write = .test chain ∧ chain 1 = sentinel) ∨ σ.write = .ended

/-- The clock's last `rt_send_if` does not lose the terminating chain. -/
def Arrives (σ : State) : Label → Prop
  | .put .hours => σ.clockOver = true → σ.put .hours = .send → σ.display = .receive ∨ OnItsWay σ
  | _ => True

/-- The chain that a putter has in hand. -/
def PutPc.chain : PutPc → Option MenageHmsh_tChain11
  | .rpc chain | .greeted chain | .copy chain => some chain
  | _ => none

/-- What holds in every run of sends that arrive. -/
structure Ok (σ : State) : Prop where
  held : σ.clockOver = true → ∀ chain, (σ.put .hours).chain = some chain → chain 1 = sentinel
  stored : σ.clockOver = true → (σ.put .hours).chain = none → σ.buf .hours 1 = sentinel
  reach : σ.clockOver = true → σ.put .hours = .idle → OnItsWay σ

variable {σ σ' : State}

/-- A step that leaves the clock and its buffer alone. -/
theorem Ok.frame (h : Ok σ) (hover : σ'.clockOver = σ.clockOver)
    (hput : σ'.put .hours = σ.put .hours) (hbuf : σ'.buf .hours = σ.buf .hours)
    (hway : σ.clockOver = true → (σ.put .hours).chain = none → OnItsWay σ → OnItsWay σ') :
    Ok σ' := by
  refine ⟨?_, ?_, ?_⟩
  · rw [hover, hput]
    exact h.held
  · rw [hover, hput, hbuf]
    exact h.stored
  · rw [hover, hput]
    intro ho hi
    refine hway ho ?_ (h.reach ho hi)
    rw [hi]
    rfl

/-- A step of the clock to the statement `pc`. -/
theorem Ok.of_put {pc : PutPc} (hpc : σ'.put .hours = pc)
    (hheld : σ'.clockOver = true → ∀ chain, pc.chain = some chain → chain 1 = sentinel)
    (hstored : σ'.clockOver = true → pc.chain = none → σ'.buf .hours 1 = sentinel)
    (hreach : σ'.clockOver = true → pc = .idle → OnItsWay σ') : Ok σ' := by
  rw [← hpc] at hheld hstored hreach
  exact ⟨hheld, hstored, hreach⟩

/-- The greeting of the clock goes on. -/
theorem Ok.greeting (h : Ok σ) {pc : PutPc} (hpc : σ'.put .hours = pc)
    (hover : σ'.clockOver = σ.clockOver) {chain : MenageHmsh_tChain11}
    (hold : (σ.put .hours).chain = some chain) (hnew : pc.chain = some chain) : Ok σ' := by
  refine .of_put hpc ?_ ?_ ?_
  · rw [hover, hnew, ← hold]
    exact h.held
  · rw [hnew]
    intro _ hnone
    cases hnone
  · rintro _ rfl
    cases hnew

theorem update_hours {α : Type} (f : Ptr → α) (x : α) : Function.update f .hours x .hours = x :=
  Function.update_self _ _ _

theorem update_times {α : Type} (f : Ptr → α) (x : α) :
    Function.update f .times x .hours = f .hours :=
  Function.update_of_ne (by decide) _ _

/-! ## The steps -/

/-- A call of `Display_PutHour` has its chain in hand. -/
theorem call_chain (σ : State) (chain : MenageHmsh_tChain11) :
    ∃ pc, (σ.call .hours chain).put .hours = pc ∧ pc.chain = some chain := by
  by_cases hskip : σ.ackn .hours ∨ σ.display = .ended
  · refine ⟨.copy chain, ?_, rfl⟩
    unfold State.call
    rw [if_pos hskip]
    exact update_hours σ.put (.copy chain)
  · refine ⟨.rpc chain, ?_, rfl⟩
    unfold State.call
    rw [if_neg hskip]
    exact update_hours σ.put (.rpc chain)

theorem ClockChrono_Clock_ok {command : ClockCommand}
    (hstep : ClockChrono_Clock σ command = some σ') : Ok σ' := by
  unfold ClockChrono_Clock at hstep
  split at hstep
  · obtain ⟨v, display, hturn⟩ : ∃ v display, σ.clock.turn command = (v, display) := ⟨_, _, rfl⟩
    rw [hturn] at hstep
    cases display with
    | true =>
        have hchain := ClockVars.turn_chain hturn
        cases hstep
        obtain ⟨pc, hpc, hsome⟩ := call_chain
          { σ with clock := v, clockOver := decide (command = .F) } v.hourChain
        refine .of_put hpc ?_ ?_ ?_
        · intro hF chain hc
          rw [hsome] at hc
          cases hc
          rw [if_pos (of_decide_eq_true hF)] at hchain
          exact hchain
        · rw [hsome]
          intro _ hnone
          cases hnone
        · rintro _ rfl
          cases hsome
    | false =>
        cases hstep
        have hF : command ≠ .F := by
          rintro rfl
          cases hturn
        have hnot : decide (command = .F) ≠ true := by
          simpa using hF
        exact ⟨fun ho => absurd ho hnot, fun ho => absurd ho hnot, fun ho => absurd ho hnot⟩
  · cases hstep

theorem Ok.chronoTurn (h : Ok σ) {command : ChronoCommand}
    (hstep : ClockChrono_Chrono σ command = some σ') : Ok σ' := by
  unfold ClockChrono_Chrono at hstep
  split at hstep
  · split at hstep
    · rename_i v display hturn
      cases hstep
      cases display with
      | true =>
          have hput : ∀ τ : State, (τ.call .times v.timesChain).put .hours = τ.put .hours := by
            intro τ
            unfold State.call
            exact update_times τ.put
              (if τ.ackn .times ∨ τ.display = .ended then .copy v.timesChain else .rpc v.timesChain)
          exact h.frame rfl (hput { σ with chrono := v }) rfl (fun _ _ hw => hw)
      | false => exact h.frame rfl rfl rfl (fun _ _ hw => hw)
    · cases hstep
      exact h.frame rfl rfl rfl (fun _ _ hw => hw)
  · cases hstep

/-- `ClockChrono_Write` has received nothing that it has not tested. -/
def WritePc.waits : WritePc → Bool
  | .copy _ | .test _ | .ended => false
  | _ => true

/-- While `Write` waits, only `Display_task` can have the chain. -/
theorem OnItsWay.sends (hw : OnItsWay σ) (hwaits : σ.write.waits = true) :
    σ.display = .send .hours := by
  rcases hw with hsend | hcopy | ⟨chain, htest, _⟩ | hended
  · exact hsend
  · rw [hcopy] at hwaits
    cases hwaits
  · rw [htest] at hwaits
    cases hwaits
  · rw [hended] at hwaits
    cases hwaits

/-- The `rt_send_if` of a pointer leaves a pointer on its way alone. -/
theorem OnItsWay.sendIf (hw : OnItsWay σ) {p : Ptr}
    (hdisplay : σ'.display = if σ.display = .receive then .send p else σ.display)
    (hwrite : σ'.write = σ.write) : OnItsWay σ' := by
  rcases hw with hsend | hway
  · refine .inl ?_
    rw [hdisplay, hsend]
    rfl
  · refine .inr ?_
    rw [hwrite]
    exact hway

/-- A statement of the clock's `Display_PutHour`. -/
theorem Ok.putHours (h : Ok σ) (harrives : Arrives σ (.put .hours))
    (hstep : Display_Put σ .hours = some σ') : Ok σ' := by
  unfold Display_Put at hstep
  split at hstep
  · rename_i chain hpc
    cases hstep
    refine .of_put (update_hours σ.put .mark) ?_ ?_ ?_
    · intro _ chain' hc
      cases hc
    · intro hover _
      show Function.update σ.buf .hours chain .hours 1 = sentinel
      rw [update_hours]
      exact h.held hover chain (by rw [hpc]; rfl)
    · intro _ hidle
      cases hidle
  · rename_i hpc
    cases hstep
    refine .of_put (update_hours σ.put .send) ?_ ?_ ?_
    · intro _ chain' hc
      cases hc
    · intro hover _
      have hbuf := h.stored hover (by rw [hpc]; rfl)
      show Function.update σ.buf .hours (Function.update (σ.buf .hours) 0 Ptr.hours.letter)
        .hours 1 = sentinel
      rw [update_hours, Function.update_of_ne (show (1 : Fin 12) ≠ 0 by decide)]
      exact hbuf
    · intro _ hidle
      cases hidle
  · rename_i hpc
    cases hstep
    refine .of_put (update_hours σ.put .idle) ?_ ?_ ?_
    · intro _ chain' hc
      cases hc
    · intro hover _
      exact h.stored hover (by rw [hpc]; rfl)
    · intro hover _
      rcases harrives hover hpc with hreceive | hway
      · exact .inl (if_pos hreceive)
      · exact hway.sendIf rfl rfl
  · cases hstep

/-- A statement of the chronometer's `Display_PutTimes`. -/
theorem Ok.putTimes (h : Ok σ) (hstep : Display_Put σ .times = some σ') : Ok σ' := by
  unfold Display_Put at hstep
  split at hstep
  · rename_i chain _
    cases hstep
    exact h.frame rfl (update_times σ.put .mark) (update_times σ.buf chain) (fun _ _ hw => hw)
  · cases hstep
    refine h.frame rfl (update_times σ.put .send) ?_ (fun _ _ hw => hw)
    exact update_times σ.buf (Function.update (σ.buf .times) 0 Ptr.times.letter)
  · cases hstep
    exact h.frame rfl (update_times σ.put .idle) rfl (fun _ _ hw => hw.sendIf rfl rfl)
  · cases hstep

/-- A statement of `Write`: the terminating chain goes from the pointer to the
copy, and from the copy to the test. -/
theorem Ok.writeStep (h : Ok σ) (hstep : ClockChrono_Write σ = some σ') : Ok σ' := by
  unfold ClockChrono_Write at hstep
  split at hstep
  · rename_i hpc
    cases hstep
    exact h.frame rfl rfl rfl fun _ _ hw => .inl (hw.sends (by rw [hpc]; rfl))
  · rename_i hpc
    split at hstep
    · rename_i p hdisplay
      cases hstep
      refine h.frame rfl rfl rfl fun _ _ hw => ?_
      have hsend := hw.sends (by rw [hpc]; rfl)
      rw [hdisplay] at hsend
      cases hsend
      exact .inr (.inl rfl)
    · cases hstep
  · rename_i p hpc
    cases hstep
    refine h.frame rfl rfl rfl ?_
    rintro hover hnone (hsend | hcopy | ⟨chain, htest, _⟩ | hended)
    · exact .inl hsend
    · rw [hpc] at hcopy
      cases hcopy
      exact .inr (.inr (.inl ⟨_, rfl, h.stored hover hnone⟩))
    · rw [hpc] at htest
      cases htest
    · rw [hpc] at hended
      cases hended
  · rename_i chain hpc
    cases hstep
    refine h.frame rfl rfl rfl ?_
    rintro _ _ (hsend | hcopy | ⟨chain', htest, hsentinel⟩ | hended)
    · exact .inl hsend
    · rw [hpc] at hcopy
      cases hcopy
    · rw [hpc] at htest
      cases htest
      exact .inr (.inr (.inr (if_pos hsentinel)))
    · rw [hpc] at hended
      cases hended
  · cases hstep

theorem Ok.greetWrite (h : Ok σ) (hstep : greetWrite σ = some σ') : Ok σ' := by
  unfold MsgDisplay.greetWrite at hstep
  split at hstep
  · rename_i hdisplay hpc
    cases hstep
    refine h.frame rfl rfl rfl fun _ _ hw => ?_
    have hsend := hw.sends (by rw [hpc]; rfl)
    rw [hdisplay] at hsend
    cases hsend
  · cases hstep

/-- A statement of `Display_task` that is neither receiving nor sending. -/
theorem OnItsWay.display (hw : OnItsWay σ) (hnot : σ.display ≠ .send .hours)
    (hwrite : σ'.write = σ.write) : OnItsWay σ' := by
  rcases hw with hsend | hway
  · exact absurd hsend hnot
  · refine .inr ?_
    rw [hwrite]
    exact hway

theorem Ok.greetPut (h : Ok σ) {p : Ptr} (hstep : greetPut σ p = some σ') : Ok σ' := by
  unfold MsgDisplay.greetPut at hstep
  split at hstep
  · rename_i get hput tput chain hdisplay hpc
    cases hstep
    cases p with
    | hours => exact h.greeting (update_hours σ.put (.greeted chain)) rfl (by rw [hpc]; rfl) rfl
    | times =>
        refine h.frame rfl (update_times σ.put (.greeted chain)) rfl (fun _ _ hw => hw.display ?_ rfl)
        rw [hdisplay]
        simp
  · cases hstep

theorem Ok.answer (h : Ok σ) {p : Ptr} {next : DisplayPc} (hnot : σ.display ≠ .send .hours)
    (hstep : σ.answer p next = some σ') : Ok σ' := by
  unfold State.answer at hstep
  split at hstep
  · rename_i chain hpc
    cases hstep
    cases p with
    | hours => exact h.greeting (update_hours σ.put (.copy chain)) rfl (by rw [hpc]; rfl) rfl
    | times => exact h.frame rfl (update_times σ.put (.copy chain)) rfl (fun _ _ hw => hw.display hnot rfl)
  · cases hstep

theorem Ok.displayStep (h : Ok σ) (hstep : Display_task σ = some σ') : Ok σ' := by
  unfold Display_task at hstep
  split at hstep
  · rename_i hdisplay
    split at hstep
    · rename_i hpc
      cases hstep
      refine h.frame rfl rfl rfl fun _ _ hw => ?_
      have hsend := hw.sends (by rw [hpc]; rfl)
      rw [hdisplay] at hsend
      cases hsend
    · cases hstep
  · rename_i hdisplay
    exact h.answer (by rw [hdisplay]; simp) hstep
  · rename_i hdisplay
    exact h.answer (by rw [hdisplay]; simp) hstep
  · rename_i p hdisplay
    cases hstep
    exact h.frame rfl rfl rfl (fun _ _ hw => hw.display (by rw [hdisplay]; simp) rfl)
  · cases hstep

theorem Ok.step (h : Ok σ) {l : Label} (harrives : Arrives σ l) (hstep : step σ l = some σ') :
    Ok σ' := by
  cases l with
  | clock command => exact ClockChrono_Clock_ok hstep
  | chrono command => exact h.chronoTurn hstep
  | put p =>
      cases p with
      | hours => exact h.putHours harrives hstep
      | times => exact h.putTimes hstep
  | write => exact h.writeStep hstep
  | greetWrite => exact h.greetWrite hstep
  | greetPut p => exact h.greetPut hstep
  | display => exact h.displayStep hstep

theorem ok_invariant : machine.InvariantBy Arrives Ok := by
  intro σ hσ
  refine hσ.induct ?_ fun σ σ' l h harrives hstep => h.step harrives hstep
  rintro σ ⟨buf, hourChain, v, v', _, rfl⟩
  refine ⟨?_, ?_, ?_⟩
  · intro hover
    cases hover
  · intro hover
    cases hover
  · intro hover
    cases hover

/-- In every run in which the clock's last `rt_send_if` arrives, `Write` is not
left waiting. -/
theorem sentinel_arrives (σ : State) (hσ : machine.ReachableBy Arrives σ) : ¬ Stuck σ := by
  rintro ⟨⟨hover, hidle⟩, _, hwrite, hdisplay⟩
  have h := ok_invariant σ hσ
  have hsend := (h.reach hover hidle).sends (by rw [hwrite]; rfl)
  rw [hsend] at hdisplay
  rcases hdisplay with he | he
  · cases he
  · cases he

/-! ## A chain that gets through, and one that is lost -/

/-- The tasks greet `Display_task`. -/
def greetings : List Label :=
  [.write, .greetWrite, .greetPut .hours, .greetPut .times, .display, .display, .display]

/-- The initial state with blank buffers. -/
def blankState : State :=
  initState (fun _ _ => ' ') (fun _ => ' ')
    ⟨MenageHmsh_Initialise, MenageHmsh_Convert MenageHmsh_Initialise false (fun _ => ' '), false,
      MenageHmsh_Initialise, false⟩

theorem blankState_init : machine.init blankState :=
  ⟨_, _, ⟨MenageHmsh_Initialise, fun _ => ' ', false, MenageHmsh_Initialise, false⟩, _, rfl, rfl⟩

/-- At the clock's last `rt_send_if` `Display_task` is waiting. -/
def Awaited (σ : State) : Label → Prop
  | .put .hours => σ.clockOver = true → σ.display = .receive
  | _ => True

instance (σ : State) (l : Label) : Decidable (Awaited σ l) :=
  match l with
  | .put .hours => inferInstanceAs (Decidable (σ.clockOver = true → σ.display = .receive))
  | .put .times | .clock _ | .chrono _ | .write | .greetWrite | .greetPut _ | .display =>
    isTrue trivial

theorem Awaited.arrives {σ : State} {l : Label} (h : Awaited σ l) : Arrives σ l := by
  unfold Arrives
  split
  · exact fun hover _ => .inl (h hover)
  · trivial

/-- The clock is ended while `Display_task` waits. -/
def awaitedRun : List Label :=
  greetings ++
    [.put .hours, .put .hours, .put .hours, .write, .display, .clock .F, .put .hours, .put .hours,
      .put .hours]

/-- In `awaitedRun` the terminating chain is on its way to `Write`. -/
theorem sentinel_arrives_awaited : ∃ σ : State, machine.ReachableBy Arrives σ ∧
    (σ.clockOver = true ∧ σ.display = .send .hours) ∧ ¬ Stuck σ := by
  have hrun : machine.leadsBy Awaited (fun σ => σ.clockOver && σ.display == .send .hours)
      blankState awaitedRun = true := by decide
  obtain ⟨σ, hσ, hask⟩ := TSys.ReachableBy.of_leadsBy (.init blankState_init) hrun
  have hreach := hσ.mono fun _ _ h => Awaited.arrives h
  rw [Bool.and_eq_true_iff, beq_iff_eq] at hask
  exact ⟨σ, hreach, hask, sentinel_arrives σ hreach⟩

/-- The initial times are shown, `Write` has not yet received them when the clock
ends, and its chain is dropped. -/
def lostRun : List Label :=
  greetings ++
    [.put .times, .put .times, .put .times, .put .hours, .put .hours, .put .hours, .clock .F,
      .put .hours, .put .hours, .put .hours, .write, .display, .write, .write, .write, .chrono .F]

/-- `Write` and `Display_task` wait, the clock and the chronometer are over. -/
def stuck (σ : State) : Bool :=
  σ.clockOver && σ.chronoOver && σ.display == .receive &&
    match σ.put .hours, σ.put .times, σ.write with
    | .idle, .idle, .receive => true
    | _, _, _ => false

theorem stuck_spec (h : stuck σ = true) : Stuck σ := by
  unfold stuck at h
  rw [Bool.and_eq_true_iff] at h
  obtain ⟨hbools, hpcs⟩ := h
  split at hpcs
  · rename_i hhours htimes hwrite
    rw [Bool.and_eq_true_iff, Bool.and_eq_true_iff, beq_iff_eq] at hbools
    exact ⟨⟨hbools.1.1, hhours⟩, ⟨hbools.1.2, htimes⟩, hwrite, .inr hbools.2⟩
  · cases hpcs

/-- In `lostRun` the terminating chain never gets to `Write`. -/
theorem sentinel_lost : ¬ ∀ σ : State, machine.Reachable σ → ¬ Stuck σ := by
  intro h
  have hrun : machine.leadsTo blankState lostRun stuck = true := by decide
  obtain ⟨σ, hσ, hask⟩ := TSys.Reachable.of_leadsTo blankState_init hrun
  exact h σ hσ (stuck_spec hask)

end RtaiDemos.Clock.MsgDisplay
