import RtaiDemos.Clock.Logic.MsgStep

/-!
# The command streams of the message version

In every run in which no test of `Put` is turned round by a status that is on
its way, the server takes a command only in a status that accepts it and what
`Get` returns is in the language of the device. Without that condition it is
not: a command may pass the test between the server's receive and its
assignment of the status.
-/

open scoped Computability

namespace RtaiDemos.Clock.Msg

/-! ## The server -/

section

variable {S C : Type} {D : Device S C} {initial final : S} {σ σ' : State S C}

/-- The greetings. -/
theorem Inv.greet (h : Inv D initial final σ) {choice : Bool} (hstep : greet σ choice = some σ') :
    Inv D initial final σ' := by
  have hnone : σ.server ≠ .loop → (∀ c, σ.server ≠ .send c) → ∀ {P : Prop} (c : C),
      σ.buffered = some c → P := by
    intro hloop hsend P c hc
    rw [h.buffered_none hloop hsend] at hc
    cases hc
  unfold Msg.greet at hstep
  split at hstep
  · rename_i put get hpc
    have hplain : σ.server.plain = true := by rw [hpc]; rfl
    have hclear := @hnone (by rw [hpc]; simp) (by rw [hpc]; simp)
    split at hstep
    · split at hstep
      · rename_i c hput
        cases hstep
        cases get with
        | true =>
            exact h.move hplain rfl rfl rfl rfl rfl (.inr ⟨by rw [hput]; rfl, by simp⟩)
              (by simp [ServerPc.branch]) (by simp) (fun c => hclear c)
        | false =>
            exact h.move hplain rfl rfl rfl rfl rfl (.inr ⟨by rw [hput]; rfl, by simp⟩)
              (by simp [ServerPc.branch]) (by simp) (fun c => hclear c)
      · cases hstep
    · split at hstep
      · cases hstep
        cases put with
        | true =>
            exact h.move hplain rfl rfl rfl rfl rfl (.inl rfl) (by simp [ServerPc.branch])
              (by simp) (fun c => hclear c)
        | false =>
            exact h.move hplain rfl rfl rfl rfl rfl (.inl rfl) (by simp [ServerPc.branch])
              (by simp) (fun c => hclear c)
      · cases hstep
  · rename_i hpc
    split at hstep
    · rename_i c hput
      cases hstep
      exact h.move (by rw [hpc]; rfl) rfl rfl rfl rfl rfl (.inr ⟨by rw [hput]; rfl, by simp⟩)
        (by simp [ServerPc.branch]) (by simp) (fun c => hnone (by rw [hpc]; simp) (by rw [hpc]; simp) c)
    · cases hstep
  · rename_i hpc
    cases hstep
    exact h.move (by rw [hpc]; rfl) rfl rfl rfl rfl rfl (.inl rfl) (by simp [ServerPc.branch])
      (by simp) (fun _ _ => rfl)
  · cases hstep

/-- From the head of the loop into a case of the `switch`. -/
theorem Inv.enter (h : Inv D initial final σ) (hpc : σ.server = .loop) {pc : ServerPc S C}
    (hplain : pc.plain = true) (hnone : σ.buffered = none)
    (hbranch : ∀ s, pc.branch = some s → s = σ.status) (hreset : pc = .reset → σ.status = final) :
    Inv D initial final { σ with server := pc } := by
  refine h.move (by rw [hpc]; rfl) hplain rfl rfl rfl rfl (.inl rfl) hbranch hreset ?_
  intro c hc
  rw [hnone] at hc
  cases hc

/-- A receive takes the command that the putter sends. -/
theorem take_cases {accepts : S → C → Bool} {f : C → State S C → State S C}
    (h : σ.take accepts f = some σ') :
    ∃ c, σ.putter = .send c ∧
      σ' = f c { σ with putter := .idle, misfit := σ.misfit || !accepts σ.status c } := by
  unfold State.take at h
  split at h
  · rename_i c hput
    cases h
    exact ⟨c, hput, rfl⟩
  · cases h

theorem Inv.took (h : Inv D initial final σ) {s : S}
    (hpc : σ.server = .receive s ∨ σ.server = .receive_if s)
    (htake : σ.take D.accepts (fun command σ => { σ with server := .assign s command }) = some σ') :
    Inv D initial final σ' := by
  obtain ⟨c, hput, rfl⟩ := take_cases htake
  refine h.take (h.branch s ?_) hpc hput
  rcases hpc with he | he
  · rw [he]
    rfl
  · rw [he]
    rfl

/-- Nobody sends and the server passes on a command of its own. -/
theorem Inv.sayNow (h : Inv D initial final σ) {c : C} (hplain : σ.server.plain = true)
    (hloop : σ.server ≠ .loop) (hlast : c ≠ D.last) (hnext : D.next σ.status c = some σ.status) :
    Inv D initial final { σ with server := .send c } := by
  obtain ⟨hover, hsay, htimed, hassign⟩ := ServerPc.plain_facts D hplain
  have hnone : σ.buffered = none := by
    apply h.buffered_none hloop
    intro c' he
    rw [he] at hplain
    cases hplain
  refine h.say hover hsay hlast ?_ h.fit h.asked ?_ ?_
  · rw [State.level_plain htimed]
    exact hnext
  · intro c' hc'
    have hsend := h.sending c' hc'
    rw [State.due_plain _ hassign] at hsend
    exact hsend
  · intro c' hc'
    rw [hnone] at hc'
    cases hc'

end

/-- A statement of `CommandClock_task`. -/
theorem Inv.clockServe {σ σ' : State ClockStatus ClockCommand} {choice : Bool}
    (h : Inv Clock.clock .stopped .stopped σ) (hbuf : σ.buffered = none)
    (hstep : CommandClock_task σ choice = some σ') : Inv Clock.clock .stopped .stopped σ' := by
  unfold CommandClock_task at hstep
  split at hstep
  · rename_i hpc
    split at hstep
    · rename_i hs
      cases hstep
      refine h.enter hpc rfl hbuf ?_ (by simp)
      intro s he
      cases he
      exact hs.symm
    · rename_i hs
      cases hstep
      refine h.enter hpc rfl hbuf ?_ (by simp)
      intro s he
      cases he
      exact hs.symm
  · rename_i hpc
    exact h.took (.inl hpc) hstep
  · rename_i c hpc
    cases hstep
    have hs := h.branch .stopped (by rw [hpc]; rfl)
    rw [← hs]
    refine h.assign hpc ?_
    intro hacc _
    cases c with
    | F => exact .inl ⟨rfl, trivial⟩
    | T => cases hacc
    | R => exact .inr ⟨by decide, rfl⟩
    | H => exact .inr ⟨by decide, rfl⟩
    | M => exact .inr ⟨by decide, rfl⟩
    | S => exact .inr ⟨by decide, rfl⟩
  · rename_i hpc
    split at hstep
    · rename_i σ₁ htake
      cases hstep
      exact h.took (.inr hpc) htake
    · cases hstep
      have hs := h.branch .running (by rw [hpc]; rfl)
      refine h.sayNow (by rw [hpc]; rfl) (by rw [hpc]; simp) (by decide) ?_
      rw [← hs]
      rfl
  · rename_i c hpc
    cases hstep
    have hs := h.branch .running (by rw [hpc]; rfl)
    rw [← hs]
    refine h.assign hpc ?_
    intro hacc _
    cases c with
    | F => exact .inl ⟨rfl, trivial⟩
    | T => exact .inr ⟨by decide, rfl⟩
    | R => cases hacc
    | H => cases hacc
    | M => cases hacc
    | S => cases hacc
  · exact h.greet hstep

/-- A statement of `CommandChrono_task`. -/
theorem Inv.chronoServe {σ σ' : State ChronoStatus ChronoCommand} {choice : Bool}
    (h : Inv Clock.chrono .stoppedInitial .stoppedFinal σ)
    (hstep : CommandChrono_task σ choice = some σ') :
    Inv Clock.chrono .stoppedInitial .stoppedFinal σ' := by
  unfold CommandChrono_task at hstep
  split at hstep
  · rename_i hpc
    have hclear : σ.status ≠ .stoppedInitial → σ.buffered = none := by
      intro hne
      cases hb : σ.buffered with
      | none => rfl
      | some c => exact absurd (h.kept c hb).1 hne
    split at hstep
    · rename_i hs
      split at hstep
      · rename_i c hbuf
        cases hstep
        have hload : Inv Clock.chrono .stoppedInitial .stoppedFinal
            { σ with buffered := none, server := .assign σ.status c } := h.unbuffer hpc hbuf
        have hcase : ServerPc.assign σ.status c = .assign .stoppedInitial c := by rw [hs]
        rw [hcase] at hload
        exact hload
      · rename_i hbuf
        cases hstep
        refine h.enter hpc rfl hbuf ?_ (by simp)
        intro s he
        cases he
        exact hs.symm
    · rename_i hs
      cases hstep
      refine h.enter hpc rfl (hclear (by rw [hs]; decide)) ?_ (by simp)
      intro s he
      cases he
      exact hs.symm
    · rename_i hs
      cases hstep
      refine h.enter hpc rfl (hclear (by rw [hs]; decide)) (by simp [ServerPc.branch]) ?_
      intro _
      exact hs
  · rename_i hpc
    exact h.took (.inl hpc) hstep
  · rename_i c hpc
    cases hstep
    refine h.assign hpc ?_
    intro hacc hkey
    cases c with
    | F => exact .inl ⟨rfl, fun he => by cases he⟩
    | C => exact .inr ⟨by decide, rfl⟩
    | I => cases hacc
    | E => cases hacc
    | R => cases hkey
  · rename_i hpc
    split at hstep
    · rename_i σ₁ htake
      cases hstep
      exact h.took (.inr hpc) htake
    · cases hstep
      have hs := h.branch .running (by rw [hpc]; rfl)
      refine h.sayNow (by rw [hpc]; rfl) (by rw [hpc]; simp) (by decide) ?_
      rw [← hs]
      rfl
  · rename_i c hpc
    cases hstep
    have hs := h.branch .running (by rw [hpc]; rfl)
    rw [← hs]
    refine h.assign hpc ?_
    intro hacc hkey
    cases c with
    | F => exact .inl ⟨rfl, fun he => by cases he⟩
    | C => cases hacc
    | I => exact .inr ⟨by decide, rfl⟩
    | E => exact .inr ⟨by decide, rfl⟩
    | R => cases hkey
  · rename_i hpc
    cases hstep
    refine h.reset hpc ?_
    intro c
    cases c <;> rfl
  · rename_i hpc
    have hs := h.timed hpc
    have hnone := h.buffered_none (by rw [hpc]; simp) (by rw [hpc]; simp)
    have hlevel : σ.level .stoppedFinal = .stoppedFinal := by
      unfold State.level
      rw [hpc]
    have hnext : Clock.chrono.next (σ.level .stoppedFinal) .R = some σ.status := by
      rw [hlevel, hs]
      rfl
    have hover : ¬ σ.server.Over Clock.chrono := by
      rw [hpc]
      rintro (he | he) <;> cases he
    have hassign : ∀ s c, σ.server ≠ .assign s c := by
      rw [hpc]
      simp
    split at hstep
    · cases hstep
      refine h.say hover (by rw [hpc]; rfl) (by decide) hnext h.fit h.asked ?_ ?_
      · intro c' hc'
        have hsend := h.sending c' hc'
        rw [State.due_plain _ hassign] at hsend
        exact hsend
      · intro c' hc'
        rw [hnone] at hc'
        cases hc'
    · obtain ⟨c, hput, rfl⟩ := take_cases hstep
      obtain ⟨hacc, hkey⟩ := h.sending c hput
      rw [State.due_plain _ hassign, hnone] at hacc
      have hacc : Clock.chrono.accepts σ.status c = true := hacc
      refine h.say hover (by rw [hpc]; rfl) (by decide) hnext ?_ ?_ ?_ ?_
      · have hacc' : ChronoStatus.accepts σ.status c = true := hacc
        rw [h.fit, hacc']
        rfl
      · intro c' hc'
        cases hc'
      · intro c' hc'
        cases hc'
      · intro c' hc'
        cases hc'
        exact ⟨hs, hacc, hkey⟩
  · exact h.greet hstep

/-! ## Runs -/

/-- The clock's server never keeps a command back. -/
structure ClockOk (σ : State ClockStatus ClockCommand) : Prop where
  inv : Inv Clock.clock .stopped .stopped σ
  clear : σ.buffered = none

/-- The invariant of the chronometer. -/
abbrev ChronoOk : State ChronoStatus ChronoCommand → Prop :=
  Inv Clock.chrono .stoppedInitial .stoppedFinal

/-- What holds of the system in every run of fresh tests. -/
structure SystemOk (σ : System) : Prop where
  clock : ClockOk σ.clock
  chrono : ChronoOk σ.chrono

/-- No test of `Put` is turned round by the status that is on its way. -/
def SystemFresh (σ : System) : SystemLabel → Prop
  | .clock l => Fresh Clock.clock σ.clock l
  | .chrono l => Fresh Clock.chrono σ.chrono l

theorem clockStep_buffered {σ σ' : State ClockStatus ClockCommand} {l : Label ClockCommand}
    (hstep : clockStep σ l = some σ') : σ'.buffered = σ.buffered := by
  cases l with
  | call c =>
      simp only [clockStep, call] at hstep
      split at hstep <;> cases hstep
      rfl
  | put =>
      simp only [clockStep, Put] at hstep
      split at hstep
      · split at hstep <;> cases hstep <;> rfl
      · cases hstep
  | serve choice =>
      simp only [clockStep, CommandClock_task, greet] at hstep
      repeat' split at hstep
      all_goals first
        | (cases hstep; rfl)
        | (obtain ⟨c, _, rfl⟩ := take_cases hstep; rfl)
        | (cases hstep; rename_i htake; obtain ⟨c, _, rfl⟩ := take_cases htake; rfl)
        | cases hstep
  | get =>
      simp only [clockStep, Get] at hstep
      repeat' split at hstep
      all_goals first
        | (cases hstep; rfl)
        | cases hstep

theorem ClockOk.step {σ σ' : State ClockStatus ClockCommand} {l : Label ClockCommand}
    (h : ClockOk σ) (hfresh : Fresh Clock.clock σ l) (hstep : clockStep σ l = some σ') :
    ClockOk σ' := by
  refine ⟨?_, by rw [clockStep_buffered hstep]; exact h.clear⟩
  cases l with
  | call c => exact h.inv.call rfl hstep
  | put => exact h.inv.put hfresh hstep
  | serve choice => exact h.inv.clockServe h.clear hstep
  | get => exact h.inv.get hstep

theorem ChronoOk.step {σ σ' : State ChronoStatus ChronoCommand} {l : Label ChronoCommand}
    (h : ChronoOk σ) (hfresh : Fresh Clock.chrono σ l) (hstep : chronoStep σ l = some σ') :
    ChronoOk σ' := by
  cases l with
  | call c =>
      simp only [chronoStep] at hstep
      split at hstep
      · rename_i hkey
        exact h.call hkey hstep
      · cases hstep
  | put => exact h.put hfresh hstep
  | serve choice => exact h.chronoServe hstep
  | get => exact h.get hstep

theorem SystemOk.step {σ σ' : System} {l : SystemLabel} (h : SystemOk σ)
    (hfresh : SystemFresh σ l) (hstep : step σ l = some σ') : SystemOk σ' := by
  cases l with
  | clock l =>
      simp only [Msg.step] at hstep
      split at hstep
      · cases hstep
      · obtain ⟨d, hd, rfl⟩ := Option.map_eq_some_iff.mp hstep
        exact ⟨h.clock.step hfresh hd, h.chrono⟩
  | chrono l =>
      simp only [Msg.step] at hstep
      split at hstep
      · cases hstep
      · obtain ⟨d, hd, rfl⟩ := Option.map_eq_some_iff.mp hstep
        exact ⟨h.clock, h.chrono.step hfresh hd⟩

theorem Inv.init {S C : Type} {D : Device S C} {initial final s : S} (h : [] ∈ D.told s) :
    Inv D initial final (initState s) := by
  refine ⟨rfl, by simp [initState, PutPc.asks], by simp [initState],
    by simp [initState, ServerPc.branch], by simp [initState], by simp [initState],
    by simp [initState], by simp [initState], .inl ⟨?_, h⟩⟩
  rintro (he | he) <;> cases he

theorem system_invariant : machine.InvariantBy SystemFresh SystemOk := by
  intro σ hσ
  refine hσ.induct ?_ fun σ σ' l h hfresh hstep => h.step hfresh hstep
  rintro σ rfl
  refine ⟨⟨.init ?_, rfl⟩, .init ?_⟩
  · exact Language.append_mem_mul (Language.nil_mem_kstar clockRound)
      (Language.nil_mem_kstar clockSet)
  · exact Language.nil_mem_kstar chronoRound

/-! ## The streams -/

/-- The results are the beginning of what is told in some status, or they end
with the last command in a status where it may come. -/
theorem Inv.results {S C : Type} {D : Device S C} {initial final : S} {σ : State S C}
    (h : Inv D initial final σ) :
    (∃ s, ∃ w ∈ D.told s, σ.got <+: w) ∨
      ∃ p s, σ.got = p ++ [D.last] ∧ D.ends s ∧ p ∈ D.told s := by
  rcases h.told with ⟨_, htold⟩ | ⟨hover | hover, p, s, hp, hends, htold⟩
  · exact .inl ⟨_, σ.said, htold, List.prefix_append _ _⟩
  · refine .inl ⟨s, p, htold, ?_⟩
    unfold State.said at hp
    rw [hover] at hp
    rw [List.append_cancel_right hp]
  · refine .inr ⟨p, s, ?_, hends, htold⟩
    unfold State.said at hp
    rw [hover] at hp
    simpa [ServerPc.saying] using hp

theorem ClockOk.stream {σ : State ClockStatus ClockCommand} (h : ClockOk σ) :
    ClockStream σ.got := by
  rcases h.inv.results with ⟨s, w, hw, hpre⟩ | ⟨p, s, hp, _, hw⟩
  · obtain ⟨v, hv, hwv⟩ := ClockStatus.told_begins hw
    exact .inl ⟨v, hv, hpre.trans hwv⟩
  · refine .inr ⟨p, hp, ?_⟩
    cases s with
    | stopped => exact .inl hw
    | running => exact .inr hw

theorem ChronoOk.stream {σ : State ChronoStatus ChronoCommand} (h : ChronoOk σ) :
    ChronoStream σ.got := by
  rcases Inv.results h with ⟨s, w, hw, hpre⟩ | ⟨p, s, hp, hends, hw⟩
  · obtain ⟨v, hv, hwv⟩ := ChronoStatus.told_begins hw
    exact .inl ⟨v, hv, hpre.trans hwv⟩
  · refine .inr ⟨p, hp, ?_⟩
    cases s with
    | stoppedInitial => exact .inl hw
    | running => exact .inr hw
    | stoppedFinal => exact absurd rfl hends

/-- In every run of fresh tests, for both devices: a command is taken only in a
status that accepts it, and what `Get` returns is in the language of the
device. -/
theorem message_streams (σ : System) (hσ : machine.ReachableBy SystemFresh σ) :
    (σ.clock.misfit = false ∧ ClockStream σ.clock.got) ∧
      σ.chrono.misfit = false ∧ ChronoStream σ.chrono.got := by
  have h := system_invariant σ hσ
  exact ⟨⟨h.clock.inv.fit, h.clock.stream⟩, h.chrono.fit, ChronoOk.stream h.chrono⟩

instance Fresh.decidable {S C : Type} (D : Device S C) (σ : State S C) (l : Label C) :
    Decidable (Fresh D σ l) :=
  match l, hput : σ.putter with
  | .put, .test c =>
    decidable_of_iff (D.accepts σ.status c = true → D.accepts (σ.due D.assigned) c = true)
      ⟨fun h c' hc' => by rw [hput] at hc'; cases hc'; exact h, fun h => h c hput⟩
  | .put, .idle | .put, .rpc _ | .put, .greeted _ | .put, .send _ =>
    isTrue fun c hc => by rw [hput] at hc; cases hc
  | .call _, _ | .serve _, _ | .get, _ => isTrue trivial

instance SystemFresh.decidable (σ : System) (l : SystemLabel) : Decidable (SystemFresh σ l) :=
  match l with
  | .clock l => Fresh.decidable Clock.clock σ.clock l
  | .chrono l => Fresh.decidable Clock.chrono σ.chrono l

/-- The clock is started and stopped, each test after the assignment before. -/
def startStop : List SystemLabel :=
  [.clock (.call .R), .clock .get, .clock (.serve true), .clock (.serve false),
    .clock (.serve false), .clock (.serve false), .clock .put, .clock (.serve false),
    .clock (.serve false), .clock (.serve false), .clock (.call .T), .clock .put, .clock .get,
    .clock (.serve false), .clock (.serve false), .clock (.serve false), .clock .get, .clock .get]

/-- A run of fresh tests through both statuses of the clock. -/
theorem message_streams_start_stop : ∃ σ : System, machine.ReachableBy SystemFresh σ ∧
    σ.clock.got = [.R, .T] ∧ ClockStream σ.clock.got := by
  have hrun : machine.leadsBy SystemFresh (fun σ => σ.clock.got == [.R, .T])
      ⟨initState .stopped, initState .stoppedInitial⟩ startStop = true := by decide
  obtain ⟨σ, hσ, hgot⟩ := TSys.ReachableBy.of_leadsBy (.init rfl) hrun
  exact ⟨σ, hσ, by simpa using hgot, (message_streams σ hσ).1.2⟩

/-! ## A stale test -/

/-- A word of a star that leads each of its parts back to the start. -/
theorem foldlM_kstar {S C : Type} {next : S → C → Option S} {s : S} {l : Language C}
    (hl : ∀ y ∈ l, y.foldlM next s = some s) {w : List C} (hw : w ∈ l∗) :
    w.foldlM next s = some s := by
  obtain ⟨parts, rfl, hparts⟩ := Language.mem_kstar.mp hw
  induction parts with
  | nil => rfl
  | cons y parts ih =>
      rw [List.flatten_cons, List.foldlM_append, hl y (hparts y (by simp))]
      have hrest : ∀ z ∈ parts, z ∈ l := fun z hz => hparts z (by simp [hz])
      exact ih hrest (Language.join_mem_kstar hrest)

/-- The rounds of the clock lead it from `stopped` to `stopped`. -/
theorem clockRound_next {w : List ClockCommand} (hw : w ∈ clockRound) :
    w.foldlM ClockStatus.next .stopped = some .stopped := by
  obtain ⟨x, hx, y, hy, rfl⟩ := Language.mem_mul.mp hw
  obtain ⟨u, hu, v, hv, rfl⟩ := Language.mem_mul.mp hx
  obtain ⟨p, hp, q, hq, rfl⟩ := Language.mem_mul.mp hu
  have hset : p.foldlM ClockStatus.next .stopped = some .stopped := by
    refine foldlM_kstar ?_ hp
    rintro z ((hz | hz) | hz)
    · rw [show z = [.H] from hz]
      rfl
    · rw [show z = [.M] from hz]
      rfl
    · rw [show z = [.S] from hz]
      rfl
  have hrun : v.foldlM ClockStatus.next .running = some .running := by
    refine foldlM_kstar ?_ hv
    intro z hz
    rw [show z = [.R] from hz]
    rfl
  rw [show y = [.T] from hy, show q = [.R] from hq, List.foldlM_append, List.foldlM_append,
    List.foldlM_append, hset]
  show (v.foldlM ClockStatus.next .running).bind _ = _
  rw [hrun]
  rfl

/-- A stream of the clock without an `F` follows its statuses. -/
theorem ClockStream.follows {w : List ClockCommand} (h : ClockStream w) (hF : .F ∉ w) :
    (w.foldlM ClockStatus.next .stopped).isSome = true := by
  rcases h with ⟨v, hv, rest, rfl⟩ | ⟨p, rfl, _⟩
  · have hfull := foldlM_kstar (fun y hy => clockRound_next hy) hv
    rw [List.foldlM_append] at hfull
    cases hw : w.foldlM ClockStatus.next .stopped with
    | none =>
        rw [hw] at hfull
        cases hfull
    | some s => rfl
  · exact absurd (by simp) hF

/-- The server has taken `R` and not yet assigned `running` when the reader
tests `H`. -/
def staleRun : List SystemLabel :=
  [.clock (.call .R), .clock .get, .clock (.serve true), .clock (.serve false),
    .clock (.serve false), .clock (.serve false), .clock .put, .clock (.serve false),
    .clock (.serve false), .clock (.call .H), .clock .put, .clock (.serve false), .clock .get,
    .clock (.serve false), .clock (.serve false), .clock (.serve false), .clock .get, .clock .get]

/-- In `staleRun` the clock is told to set its hours while it runs. -/
theorem message_streams_stale : ¬ ∀ σ : System, machine.Reachable σ →
    (σ.clock.misfit = false ∧ ClockStream σ.clock.got) ∧
      σ.chrono.misfit = false ∧ ChronoStream σ.chrono.got := by
  intro h
  have hrun : machine.leadsTo ⟨initState .stopped, initState .stoppedInitial⟩ staleRun
      (fun σ => σ.clock.got == [.R, .H]) = true := by decide
  obtain ⟨σ, hσ, hgot⟩ := TSys.Reachable.of_leadsTo rfl hrun
  have hgot : σ.clock.got = [.R, .H] := by simpa using hgot
  have hstream := (h σ hσ).1.2
  rw [hgot] at hstream
  have hfollows := ClockStream.follows hstream (by decide)
  cases hfollows

end RtaiDemos.Clock.Msg
