import RtaiDemos.Clock.MsgCommand

/-!
# A status that is on its way

The server takes a command, which lets the putter go on, and only then assigns
the status the command leads to (for a command kept in `buffered`, a whole turn
later). `due` is the status that is on its way. In runs in which no test of
`Put` is turned round by it, a command still passes the test when the server
takes it; this module proves what one step keeps of that.
-/

namespace RtaiDemos.Clock.Msg

variable {S C : Type}

/-- The command that waits for the test. -/
def PutPc.asks : PutPc C → Option C
  | .rpc command | .greeted command | .test command => some command
  | _ => none

/-- The case of the `switch` the server is in. -/
def ServerPc.branch : ServerPc S C → Option S
  | .receive s | .receive_if s | .assign s _ => some s
  | _ => none

/-- The command that the server passes on, its status being assigned. -/
def ServerPc.saying : ServerPc S C → List C
  | .send command => [command]
  | _ => []

/-- The server has nothing to assign and nothing to say. -/
def ServerPc.plain : ServerPc S C → Bool
  | .assign _ _ | .send _ | .receive_timed | .ended => false
  | _ => true

namespace State

variable (σ : State S C)

/-- The status once the server has assigned that of the command it has taken. -/
def due (assigned : S → C → S) : S :=
  match σ.server with
  | .assign s command => assigned s command
  | _ => (σ.buffered.map (assigned σ.status)).getD σ.status

/-- What `Get` has returned, with the command that is passed on. -/
def said : List C := σ.got ++ σ.server.saying

end State

/-- The test of `Put` is not turned round by the status that is on its way. -/
def Fresh (D : Device S C) (σ : State S C) : Label C → Prop
  | .put => ∀ c, σ.putter = .test c → D.accepts σ.status c = true →
      D.accepts (σ.due D.assigned) c = true
  | _ => True

/-- The server has the last command to pass on, or has passed it. -/
def ServerPc.Over (D : Device S C) (pc : ServerPc S C) : Prop := pc = .send D.last ∨ pc = .ended

/-- The status up to which everything has been said: between the two statements
of the final stop it is still that one. -/
def State.level (final : S) (σ : State S C) : S :=
  match σ.server with
  | .receive_timed => final
  | _ => σ.status

/-- See the module header; `initial` and `final` are the statuses before and
after the reset. -/
structure Inv (D : Device S C) (initial final : S) (σ : State S C) : Prop where
  fit : σ.misfit = false
  asked : ∀ c, σ.putter.asks = some c → D.key c = true
  sending : ∀ c, σ.putter = .send c → D.accepts (σ.due D.assigned) c = true ∧ D.key c = true
  branch : ∀ s, σ.server.branch = some s → s = σ.status
  resetting : σ.server = .reset → σ.status = final
  timed : σ.server = .receive_timed → σ.status = initial
  loaded : ∀ s c, σ.server = .assign s c → D.accepts s c = true ∧ D.key c = true
  kept : ∀ c, σ.buffered = some c → σ.status = initial ∧ D.accepts σ.status c = true ∧
    D.key c = true ∧ (σ.server = .loop ∨ ∃ c', σ.server = .send c' ∧ c' ≠ D.last)
  told : ¬ σ.server.Over D ∧ σ.said ∈ D.told (σ.level final) ∨
    σ.server.Over D ∧ ∃ p s, σ.said = p ++ [D.last] ∧ D.ends s ∧ p ∈ D.told s

section

variable {D : Device S C} {initial final : S} {σ σ' : State S C}

theorem Inv.speaking (h : Inv D initial final σ) (hnot : ¬ σ.server.Over D) :
    σ.said ∈ D.told (σ.level final) := by
  rcases h.told with ⟨_, h⟩ | ⟨hover, _⟩
  · exact h
  · exact absurd hover hnot

theorem ServerPc.plain_facts (D : Device S C) {pc : ServerPc S C} (h : pc.plain = true) :
    ¬ pc.Over D ∧ pc.saying = [] ∧ pc ≠ .receive_timed ∧ ∀ s c, pc ≠ .assign s c := by
  refine ⟨?_, ?_, ?_, ?_⟩
  · rintro (he | he)
    · rw [he] at h
      cases h
    · rw [he] at h
      cases h
  · cases pc <;> first | rfl | cases h
  · intro he
    rw [he] at h
    cases h
  · intro s c he
    rw [he] at h
    cases h

theorem State.due_plain (assigned : S → C → S) (h : ∀ s c, σ.server ≠ .assign s c) :
    σ.due assigned = (σ.buffered.map (assigned σ.status)).getD σ.status := by
  unfold State.due
  split
  · rename_i s c he
    exact absurd he (h s c)
  · rfl

theorem State.level_plain (h : σ.server ≠ .receive_timed) : σ.level final = σ.status := by
  unfold State.level
  split
  · rename_i he
    exact absurd he h
  · rfl

/-- Outside its loop head and its sends the server has nothing in `buffered`. -/
theorem Inv.buffered_none (h : Inv D initial final σ) (hloop : σ.server ≠ .loop)
    (hsend : ∀ c, σ.server ≠ .send c) : σ.buffered = none := by
  cases hb : σ.buffered with
  | none => rfl
  | some c =>
      obtain ⟨_, _, _, he | ⟨c', he, _⟩⟩ := h.kept c hb
      · exact absurd he hloop
      · exact absurd he (hsend c')

/-! ## The clients -/

/-- The server moves on, or the clients greet it; nothing is said. -/
theorem Inv.move (h : Inv D initial final σ) (hold : σ.server.plain = true)
    (hnew : σ'.server.plain = true) (hstatus : σ'.status = σ.status)
    (hbuf : σ'.buffered = σ.buffered) (hgot : σ'.got = σ.got) (hmisfit : σ'.misfit = σ.misfit)
    (hasks : σ'.putter = σ.putter ∨
      σ'.putter.asks = σ.putter.asks ∧ ∀ c, σ'.putter ≠ .send c)
    (hbranch : ∀ s, σ'.server.branch = some s → s = σ.status)
    (hreset : σ'.server = .reset → σ.status = final)
    (hkept : ∀ c, σ.buffered = some c → σ'.server = .loop) : Inv D initial final σ' := by
  obtain ⟨hover, hsay, htimed, hassign⟩ := ServerPc.plain_facts D hold
  obtain ⟨hover', hsay', htimed', hassign'⟩ := ServerPc.plain_facts D hnew
  have hdue : σ'.due D.assigned = σ.due D.assigned := by
    rw [State.due_plain _ hassign, State.due_plain _ hassign', hstatus, hbuf]
  refine ⟨by rw [hmisfit]; exact h.fit, ?_, ?_, ?_, ?_, ?_, ?_, ?_, ?_⟩
  · intro c hc
    rcases hasks with he | ⟨he, _⟩
    · rw [he] at hc
      exact h.asked c hc
    · rw [he] at hc
      exact h.asked c hc
  · intro c hc
    rcases hasks with he | ⟨_, he⟩
    · rw [he] at hc
      rw [hdue]
      exact h.sending c hc
    · exact absurd hc (he c)
  · intro s hs
    rw [hstatus]
    exact hbranch s hs
  · intro hr
    rw [hstatus]
    exact hreset hr
  · intro ht
    exact absurd ht htimed'
  · intro s c hc
    exact absurd hc (hassign' s c)
  · intro c hc
    rw [hbuf] at hc
    obtain ⟨hinit, hacc, hkey, _⟩ := h.kept c hc
    rw [hstatus]
    exact ⟨hinit, hacc, hkey, .inl (hkept c hc)⟩
  · have hsaid := h.speaking hover
    refine .inl ⟨hover', ?_⟩
    unfold State.said at hsaid ⊢
    rw [hsay, State.level_plain htimed] at hsaid
    rw [hsay', State.level_plain htimed', hgot, hstatus]
    exact hsaid

/-- A step of the putter alone. -/
theorem Inv.putterMove (h : Inv D initial final σ) (pc : PutPc C)
    (hasks : ∀ c, pc.asks = some c → D.key c = true)
    (hsending : ∀ c, pc = .send c → D.accepts (σ.due D.assigned) c = true ∧ D.key c = true) :
    Inv D initial final { σ with putter := pc } :=
  ⟨h.fit, hasks, hsending, h.branch, h.resetting, h.timed, h.loaded, h.kept, h.told⟩

theorem Inv.call (h : Inv D initial final σ) {c : C} (hkey : D.key c = true)
    (hcall : call σ c = some σ') : Inv D initial final σ' := by
  unfold Msg.call at hcall
  split at hcall
  · cases hcall
    refine h.putterMove _ ?_ ?_
    · intro c' hc'
      cases hackn : σ.putAckn with
      | true =>
          rw [hackn] at hc'
          cases hc'
          exact hkey
      | false =>
          rw [hackn] at hc'
          cases hc'
          exact hkey
    · intro c' hc'
      cases hackn : σ.putAckn with
      | true =>
          rw [hackn] at hc'
          cases hc'
      | false =>
          rw [hackn] at hc'
          cases hc'
  · cases hcall

/-- A test of `Put` that is not turned round. -/
theorem Inv.put (h : Inv D initial final σ) (hfresh : Fresh D σ .put)
    (hput : Put D.accepts σ = some σ') : Inv D initial final σ' := by
  unfold Put at hput
  split at hput
  · rename_i c hpc
    have hkey := h.asked c (by rw [hpc]; rfl)
    split at hput
    · rename_i hacc
      cases hput
      refine h.putterMove _ ?_ ?_
      · intro c' hc'
        cases hc'
      · intro c' hc'
        cases hc'
        exact ⟨hfresh c hpc hacc, hkey⟩
    · cases hput
      refine h.putterMove _ ?_ ?_
      · intro c' hc'
        cases hc'
      · intro c' hc'
        cases hc'
  · cases hput

/-- The server's `rt_send` is over. -/
theorem Inv.sent (h : Inv D initial final σ) {c : C} (hpc : σ.server = .send c) (getter : GetPc)
    (pc : ServerPc S C) (hnext : pc = .loop ∧ c ≠ D.last ∨ pc = .ended ∧ c = D.last) :
    Inv D initial final { σ with got := σ.got ++ [c], getter := getter, server := pc } := by
  have hsaid : σ.said = σ.got ++ [c] := by
    unfold State.said
    rw [hpc]
    rfl
  have hsaid' : ({ σ with got := σ.got ++ [c], getter := getter, server := pc } : State S C).said =
      σ.said := by
    rw [hsaid]
    unfold State.said
    rcases hnext with ⟨rfl, _⟩ | ⟨rfl, _⟩
    · exact List.append_nil _
    · exact List.append_nil _
  have hdue : ({ σ with got := σ.got ++ [c], getter := getter, server := pc } : State S C).due
      D.assigned = σ.due D.assigned := by
    rw [State.due_plain, State.due_plain]
    · rw [hpc]
      simp
    · rcases hnext with ⟨rfl, _⟩ | ⟨rfl, _⟩
      · simp
      · simp
  refine ⟨h.fit, h.asked, ?_, ?_, ?_, ?_, ?_, ?_, ?_⟩
  · intro c' hc'
    rw [hdue]
    exact h.sending c' hc'
  · intro s hs
    rcases hnext with ⟨rfl, _⟩ | ⟨rfl, _⟩ <;> cases hs
  · intro hr
    rcases hnext with ⟨rfl, _⟩ | ⟨rfl, _⟩ <;> cases hr
  · intro ht
    rcases hnext with ⟨rfl, _⟩ | ⟨rfl, _⟩ <;> cases ht
  · intro s c' hc'
    rcases hnext with ⟨rfl, _⟩ | ⟨rfl, _⟩ <;> cases hc'
  · intro c' hc'
    obtain ⟨hinit, hacc, hkey, hwhere⟩ := h.kept c' hc'
    refine ⟨hinit, hacc, hkey, .inl ?_⟩
    rcases hwhere with he | ⟨c'', he, hne⟩
    · rw [hpc] at he
      cases he
    · rw [hpc] at he
      cases he
      rcases hnext with ⟨he, _⟩ | ⟨_, he⟩
      · exact he
      · exact absurd he hne
  · have hlevel : σ.level final = σ.status := State.level_plain (by rw [hpc]; simp)
    rw [hsaid']
    rcases h.told with ⟨hnot, htold⟩ | ⟨hover, hend⟩
    · rcases hnext with ⟨rfl, hne⟩ | ⟨rfl, he⟩
      · refine .inl ⟨?_, ?_⟩
        · rintro (he | he) <;> cases he
        · rw [hlevel] at htold
          exact htold
      · rw [hpc, he] at hnot
        exact absurd (.inl rfl) hnot
    · rcases hnext with ⟨rfl, hne⟩ | ⟨rfl, he⟩
      · rw [hpc] at hover
        rcases hover with he | he
        · cases he
          exact absurd rfl hne
        · cases he
      · exact .inr ⟨.inr rfl, hend⟩

/-- The getter takes what the server sends. -/
theorem Inv.get [DecidableEq C] (h : Inv D initial final σ) (hget : Get D.last σ = some σ') :
    Inv D initial final σ' := by
  unfold Get at hget
  split at hget
  · cases hget
    exact ⟨h.fit, h.asked, h.sending, h.branch, h.resetting, h.timed, h.loaded, h.kept, h.told⟩
  · split at hget
    · rename_i c hpc
      cases hget
      by_cases hlast : c = D.last
      · rw [if_pos hlast, if_pos hlast]
        exact h.sent hpc _ .ended (.inr ⟨rfl, hlast⟩)
      · rw [if_neg hlast, if_neg hlast]
        exact h.sent hpc _ .loop (.inl ⟨rfl, hlast⟩)
    · cases hget
  · cases hget

/-! ## The server -/

/-- A receive from the putter, in a case that assigns the status next. -/
theorem Inv.take (h : Inv D initial final σ) {s : S} {c : C} (hs : s = σ.status)
    (hpc : σ.server = .receive s ∨ σ.server = .receive_if s) (hput : σ.putter = .send c) :
    Inv D initial final { σ with
      putter := .idle
      misfit := σ.misfit || !D.accepts σ.status c
      server := .assign s c } := by
  have hplain : σ.server.plain = true := by
    rcases hpc with he | he
    · rw [he]
      rfl
    · rw [he]
      rfl
  obtain ⟨hover, hsay, htimed, hassign⟩ := ServerPc.plain_facts D hplain
  have hnone : σ.buffered = none := by
    apply h.buffered_none
    · rcases hpc with he | he <;> simp [he]
    · rcases hpc with he | he <;> simp [he]
  obtain ⟨hacc, hkey⟩ := h.sending c hput
  rw [State.due_plain _ hassign, hnone] at hacc
  have hacc : D.accepts σ.status c = true := hacc
  refine ⟨?_, ?_, ?_, ?_, ?_, ?_, ?_, ?_, ?_⟩
  · simp [h.fit, hacc]
  · intro c' hc'
    cases hc'
  · intro c' hc'
    cases hc'
  · intro s' hs'
    cases hs'
    exact hs
  · intro hr
    cases hr
  · intro ht
    cases ht
  · intro s' c' hc'
    cases hc'
    rw [hs]
    exact ⟨hacc, hkey⟩
  · intro c' hc'
    have hc' : σ.buffered = some c' := hc'
    rw [hnone] at hc'
    cases hc'
  · have hsaid := h.speaking hover
    refine .inl ⟨?_, ?_⟩
    · rintro (he | he) <;> cases he
    · unfold State.said at hsaid
      rw [hsay, State.level_plain htimed] at hsaid
      exact hsaid

/-- The command that was kept back is taken up. -/
theorem Inv.unbuffer (h : Inv D initial final σ) {c : C} (hpc : σ.server = .loop)
    (hbuf : σ.buffered = some c) :
    Inv D initial final { σ with buffered := none, server := .assign σ.status c } := by
  obtain ⟨_, hacc, hkey, _⟩ := h.kept c hbuf
  have hdue : σ.due D.assigned = D.assigned σ.status c := by
    rw [State.due_plain _ (by rw [hpc]; simp), hbuf]
    rfl
  refine ⟨h.fit, h.asked, ?_, ?_, ?_, ?_, ?_, ?_, ?_⟩
  · intro c' hc'
    have hsend := h.sending c' hc'
    rw [hdue] at hsend
    exact hsend
  · intro s' hs'
    cases hs'
    rfl
  · intro hr
    cases hr
  · intro ht
    cases ht
  · intro s' c' hc'
    cases hc'
    exact ⟨hacc, hkey⟩
  · intro c' hc'
    cases hc'
  · have hsaid := h.speaking (by rw [hpc]; rintro (he | he) <;> cases he)
    refine .inl ⟨?_, ?_⟩
    · rintro (he | he) <;> cases he
    · unfold State.said at hsaid
      rw [hpc, State.level_plain (by rw [hpc]; simp)] at hsaid
      exact hsaid

/-- The status is assigned and the command passed on. -/
theorem Inv.assign (h : Inv D initial final σ) {s : S} {c : C} (hpc : σ.server = .assign s c)
    (hnext : D.accepts s c = true → D.key c = true →
      c = D.last ∧ D.ends s ∨ c ≠ D.last ∧ D.next s c = some (D.assigned s c)) :
    Inv D initial final { σ with status := D.assigned s c, server := .send c } := by
  have hs := h.branch s (by rw [hpc]; rfl)
  obtain ⟨hacc, hkey⟩ := h.loaded s c hpc
  have hnone := h.buffered_none (by rw [hpc]; simp) (by rw [hpc]; simp)
  have hdue : σ.due D.assigned = D.assigned s c := by
    unfold State.due
    rw [hpc]
  have hdue' : ({ σ with status := D.assigned s c, server := .send c } : State S C).due D.assigned =
      D.assigned s c := by
    rw [State.due_plain _ (by simp)]
    show (σ.buffered.map _).getD _ = _
    rw [hnone]
    rfl
  refine ⟨h.fit, h.asked, ?_, ?_, ?_, ?_, ?_, ?_, ?_⟩
  · intro c' hc'
    have hsend := h.sending c' hc'
    rw [hdue] at hsend
    rw [hdue']
    exact hsend
  · intro s' hs'
    cases hs'
  · intro hr
    cases hr
  · intro ht
    cases ht
  · intro s' c' hc'
    cases hc'
  · intro c' hc'
    have hc' : σ.buffered = some c' := hc'
    rw [hnone] at hc'
    cases hc'
  · have hsaid := h.speaking (by rw [hpc]; rintro (he | he) <;> cases he)
    unfold State.said at hsaid
    rw [hpc, State.level_plain (by rw [hpc]; simp), ← hs] at hsaid
    simp only [ServerPc.saying, List.append_nil] at hsaid
    rcases hnext hacc hkey with ⟨hlast, hends⟩ | ⟨hlast, hnext⟩
    · refine .inr ⟨.inl (by rw [hlast]), σ.got, s, ?_, hends, hsaid⟩
      rw [← hlast]
      rfl
    · refine .inl ⟨?_, D.told_next hnext hsaid⟩
      rintro (he | he)
      · cases he
        exact hlast rfl
      · cases he

/-- The server passes on a command of its own, from a status where everything
was said; `buffered` may be set on the way. -/
theorem Inv.say (h : Inv D initial final σ) {c : C} {putter : PutPc C} {buffered : Option C}
    {misfit : Bool} (hover : ¬ σ.server.Over D) (hsay : σ.server.saying = [])
    (hlast : c ≠ D.last) (hnext : D.next (σ.level final) c = some σ.status)
    (hmisfit : misfit = false) (hasks : ∀ c', putter.asks = some c' → D.key c' = true)
    (hsending : ∀ c', putter = .send c' →
      D.accepts ((buffered.map (D.assigned σ.status)).getD σ.status) c' = true ∧ D.key c' = true)
    (hkept : ∀ c', buffered = some c' →
      σ.status = initial ∧ D.accepts σ.status c' = true ∧ D.key c' = true) :
    Inv D initial final { σ with
      putter := putter, buffered := buffered, misfit := misfit, server := .send c } := by
  refine ⟨hmisfit, hasks, ?_, ?_, ?_, ?_, ?_, ?_, ?_⟩
  · intro c' hc'
    rw [State.due_plain _ (by simp)]
    exact hsending c' hc'
  · intro s' hs'
    cases hs'
  · intro hr
    cases hr
  · intro ht
    cases ht
  · intro s' c' hc'
    cases hc'
  · intro c' hc'
    obtain ⟨hinit, hacc, hkey⟩ := hkept c' hc'
    exact ⟨hinit, hacc, hkey, .inr ⟨c, rfl, hlast⟩⟩
  · have hsaid := h.speaking hover
    unfold State.said at hsaid
    rw [hsay, List.append_nil] at hsaid
    refine .inl ⟨?_, D.told_next hnext hsaid⟩
    rintro (he | he)
    · cases he
      exact hlast rfl
    · cases he

/-- The reset of the final stop. -/
theorem Inv.reset (h : Inv D initial final σ) (hpc : σ.server = .reset)
    (hsame : ∀ c, D.accepts final c = D.accepts initial c) :
    Inv D initial final { σ with status := initial, server := .receive_timed } := by
  have hs := h.resetting hpc
  have hnone := h.buffered_none (by rw [hpc]; simp) (by rw [hpc]; simp)
  refine ⟨h.fit, h.asked, ?_, ?_, ?_, ?_, ?_, ?_, ?_⟩
  · intro c hc
    have hsend := h.sending c hc
    rw [State.due_plain _ (by rw [hpc]; simp), hnone] at hsend
    have hsend : D.accepts σ.status c = true ∧ D.key c = true := hsend
    rw [State.due_plain _ (by simp)]
    show D.accepts ((σ.buffered.map _).getD initial) c = true ∧ _
    rw [hnone, Option.map_none, Option.getD_none, ← hsame, ← hs]
    exact hsend
  · intro s' hs'
    cases hs'
  · intro hr
    cases hr
  · intro _
    rfl
  · intro s' c' hc'
    cases hc'
  · intro c' hc'
    have hc' : σ.buffered = some c' := hc'
    rw [hnone] at hc'
    cases hc'
  · have hsaid := h.speaking (by rw [hpc]; rintro (he | he) <;> cases he)
    unfold State.said at hsaid
    rw [hpc, State.level_plain (by rw [hpc]; simp), hs] at hsaid
    refine .inl ⟨?_, ?_⟩
    · rintro (he | he) <;> cases he
    · exact hsaid

end

end RtaiDemos.Clock.Msg
