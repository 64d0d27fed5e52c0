import RtaiDemos.Clock.Logic.SemToken

/-!
# What a statement of Get can do

`GetStep` lists the effects that a statement of `CommandClock_Get` or
`CommandChrono_Get` can have, with the part of the command language each of
them speaks. Both functions are shown to be made of these steps, and what all
steps keep is derived from the list: the invariant of the unit, and that what
`Get` returned is what the status says.
-/

namespace RtaiDemos.Clock.Sem

variable {S C : Type}

section

variable {D : Device S C} {σ σ' : State S C}

/-! ## What has been said -/

/-- The command that `Get` is about to return, the status being changed. -/
def GetPc.returning : GetPc S C → List C
  | .signal command => [command]
  | _ => []

/-- What `Get` has returned, with the command whose status is set. -/
def State.said (σ : State S C) : List C := σ.got.map Prod.fst ++ σ.getter.returning

/-- The getter has the last command. -/
def GetPc.Over (D : Device S C) (pc : GetPc S C) : Prop := pc = .signal D.last ∨ pc = .ended

/-- What has been said is what the status tells, until the last command. -/
def State.Told (D : Device S C) (σ : State S C) : Prop :=
  ¬ σ.getter.Over D ∧ σ.said ∈ D.told σ.status ∨
    σ.getter.Over D ∧ ∃ p s, σ.said = p ++ [D.last] ∧ D.ends s ∧ p ∈ D.told s

theorem GetPc.Free.returning {pc : GetPc S C} (h : pc.Free) : pc.returning = [] := by
  have hholds := h.holds
  cases pc <;> first | rfl | cases hholds

theorem GetPc.Free.not_over {pc : GetPc S C} (h : pc.Free) (hne : pc ≠ .ended) :
    ¬ pc.Over D := by
  rintro (he | he)
  · have hholds := h.holds
    rw [he] at hholds
    cases hholds
  · exact hne he

theorem State.Told.speaking (h : σ.Told D) (hnot : ¬ σ.getter.Over D) :
    σ.said ∈ D.told σ.status := by
  rcases h with ⟨_, h⟩ | ⟨hover, _⟩
  · exact h
  · exact absurd hover hnot

/-- The getter moves on with nothing said. -/
theorem State.Told.silent (h : σ.Told D) (hnot : ¬ σ.getter.Over D)
    (hret : σ.getter.returning = []) (hgot : σ'.got = σ.got) (hstatus : σ'.status = σ.status)
    (hnot' : ¬ σ'.getter.Over D) (hret' : σ'.getter.returning = []) : σ'.Told D := by
  have hsaid := h.speaking hnot
  refine .inl ⟨hnot', ?_⟩
  unfold State.said at hsaid ⊢
  rw [hret', hgot, hstatus]
  rw [hret] at hsaid
  exact hsaid

/-! ## The steps -/

/-- The effects of a statement of `Get`. -/
inductive GetStep [BEq C] (D : Device S C) (σ : State S C) : State S C → Prop
  | go (pc : GetPc S C) (hold : σ.getter.Free) (hne : σ.getter ≠ .ended) (hnew : pc.Free)
      (hne' : pc ≠ .ended) (hbranch : ∀ s, pc.branch = some s → s = σ.status)
      (hclear : ∀ s, pc = .clear s → σ.buffered = true) : GetStep D σ { σ with getter := pc }
  | take (pc : GetPc S C) {σ' : State S C} (hold : σ.getter.Free) (hne : σ.getter ≠ .ended)
      (hpicks : pc.picks = 1) (hbranch : ∀ s, pc.branch = some s → s = σ.status)
      (htake : σ.take pc = some σ') : GetStep D σ σ'
  | keep (s : S) (hpc : σ.getter = .keep s) :
      GetStep D σ { σ with buffered := true, getter := .reset s }
  | clear (s : S) (hpc : σ.getter = .clear s) :
      GetStep D σ { σ with buffered := false, getter := .load s }
  | load (s : S) (hpc : σ.getter = .load s) : GetStep D σ (σ.load s)
  | assign (s : S) (c : C) (s' : S) (hpc : σ.getter = .assign s c)
      (hnext : D.accepts s c = true → D.key c = true →
        c = D.last ∧ D.ends s ∨ c ≠ D.last ∧ D.next s c = some s') :
      GetStep D σ { σ with status := s', getter := .signal c }
  | release (c : C) (hpc : σ.getter = .signal c) : GetStep D σ (σ.release c (c == D.last))
  | skip (c : C) (s' : S) (hold : σ.getter.Free) (hne : σ.getter ≠ .ended)
      (hnext : D.next σ.status c = some s')
      (hsame : ∀ c', D.accepts σ.status c' = D.accepts s' c') :
      GetStep D σ { σ.ret c false false with status := s' }

variable [BEq C]

theorem GetStep.inv (h : GetStep D σ σ') (hinv : Inv D.accepts D.key σ) :
    Inv D.accepts D.key σ' := by
  cases h with
  | go pc hold hne hnew hne' hbranch hclear => exact hinv.go pc hold hnew hbranch hclear
  | take pc hold hne hpicks hbranch htake => exact hinv.take hold hpicks hbranch htake
  | keep s hpc => exact hinv.keep hpc
  | clear s hpc => exact hinv.clear hpc
  | load s hpc => exact hinv.load hpc
  | assign s c s' hpc hnext => exact hinv.assign hpc s'
  | release c hpc => exact hinv.release hpc _
  | skip c s' hold hne hnext hsame => exact hinv.skip hold c hsame

theorem GetStep.told [LawfulBEq C] (h : GetStep D σ σ') (hinv : Inv D.accepts D.key σ)
    (htold : σ.Told D) : σ'.Told D := by
  cases h with
  | go pc hold hne hnew hne' hbranch hclear =>
      exact htold.silent (hold.not_over hne) hold.returning rfl rfl (hnew.not_over hne')
        hnew.returning
  | take pc hold hne hpicks hbranch htake =>
      unfold State.take at htake
      split at htake
      · cases htake
        have hret : pc.returning = [] := by
          cases pc <;> first | rfl | cases hpicks
        have hnot : ¬ pc.Over D := by
          rintro (he | he)
          · rw [he] at hpicks
            cases hpicks
          · rw [he] at hpicks
            cases hpicks
        exact htold.silent (hold.not_over hne) hold.returning rfl rfl hnot hret
      · cases htake
  | keep s hpc =>
      refine htold.silent ?_ (by rw [hpc]; rfl) rfl rfl ?_ rfl
      · rw [hpc]
        rintro (he | he) <;> cases he
      · rintro (he | he) <;> cases he
  | clear s hpc =>
      refine htold.silent ?_ (by rw [hpc]; rfl) rfl rfl ?_ rfl
      · rw [hpc]
        rintro (he | he) <;> cases he
      · rintro (he | he) <;> cases he
  | load s hpc =>
      refine htold.silent ?_ (by rw [hpc]; rfl) rfl rfl ?_ rfl
      · rw [hpc]
        rintro (he | he) <;> cases he
      · rintro (he | he) <;> cases he
  | assign s c s' hpc hnext =>
      have hsaid := htold.speaking (by rw [hpc]; rintro (he | he) <;> cases he)
      have hs := hinv.branch s (by rw [hpc]; rfl)
      obtain ⟨hacc, hkey⟩ := hinv.loaded s c hpc
      unfold State.said at hsaid
      rw [hpc, ← hs] at hsaid
      simp only [GetPc.returning, List.append_nil] at hsaid
      rcases hnext hacc hkey with ⟨hlast, hends⟩ | ⟨hlast, hnext⟩
      · refine .inr ⟨.inl (by rw [hlast]), σ.got.map Prod.fst, s, ?_, hends, hsaid⟩
        rw [← hlast]
        rfl
      · refine .inl ⟨?_, D.told_next hnext hsaid⟩
        rintro (he | he)
        · cases he
          exact hlast rfl
        · cases he
  | release c hpc =>
      have hsaid : (σ.release c (c == D.last)).said = σ.said := by
        unfold State.said
        rw [hpc]
        cases c == D.last <;> simp [State.release, State.ret, GetPc.returning]
      rcases htold with ⟨hnot, htold⟩ | ⟨hover, p, s, hp, hends, htold⟩
      · have hne : c ≠ D.last := by
          intro he
          apply hnot
          rw [hpc, he]
          exact .inl rfl
        have hbeq : (c == D.last) = false := by
          rw [beq_eq_false_iff_ne]
          exact hne
        refine .inl ⟨?_, ?_⟩
        · rw [hbeq]
          rintro (he | he) <;> cases he
        · rw [hsaid]
          exact htold
      · have he : c = D.last := by
          rw [hpc] at hover
          rcases hover with he | he
          · cases he
            rfl
          · cases he
        refine .inr ⟨.inr ?_, p, s, ?_, hends, htold⟩
        · rw [he]
          simp [State.release, State.ret]
        · rw [hsaid]
          exact hp
  | skip c s' hold hne hnext hsame =>
      have hsaid := htold.speaking (hold.not_over hne)
      unfold State.said at hsaid
      rw [hold.returning, List.append_nil] at hsaid
      refine .inl ⟨?_, ?_⟩
      · rintro (he | he) <;> cases he
      · have hnew := D.told_next hnext hsaid
        show (σ.got ++ [(c, false)]).map Prod.fst ++ [] ∈ D.told s'
        rw [List.append_nil, List.map_append]
        exact hnew

/-- The putter is where it was, and a command comes out of `Get` at most. -/
theorem GetStep.frame (h : GetStep D σ σ') :
    σ'.putter = σ.putter ∧ σ'.accepted = σ.accepted ∧
      (σ'.delivered = σ.delivered ∧ σ'.getter ≠ .ended ∨
        ∃ c, σ'.delivered = σ.delivered ++ [c]) := by
  cases h with
  | go pc hold hne hnew hne' hbranch hclear => exact ⟨rfl, rfl, .inl ⟨rfl, hne'⟩⟩
  | take pc hold hne hpicks hbranch htake =>
      unfold State.take at htake
      split at htake
      · cases htake
        refine ⟨rfl, rfl, .inl ⟨rfl, ?_⟩⟩
        intro he
        have he : pc = .ended := he
        rw [he] at hpicks
        cases hpicks
      · cases htake
  | keep s hpc => exact ⟨rfl, rfl, .inl ⟨rfl, by simp⟩⟩
  | clear s hpc => exact ⟨rfl, rfl, .inl ⟨rfl, by simp⟩⟩
  | load s hpc => exact ⟨rfl, rfl, .inl ⟨rfl, by simp [State.load]⟩⟩
  | assign s c s' hpc hnext => exact ⟨rfl, rfl, .inl ⟨rfl, by simp⟩⟩
  | release c hpc =>
      refine ⟨rfl, rfl, .inr ⟨c, ?_⟩⟩
      have hdel := σ.delivered_ret c true (c == D.last)
      rw [if_pos rfl] at hdel
      exact hdel
  | skip c s' hold hne hnext hsame =>
      refine ⟨rfl, rfl, .inl ⟨?_, by simp [State.ret]⟩⟩
      have hdel := σ.delivered_ret c false false
      rw [if_neg (by simp)] at hdel
      exact hdel

end

/-! ## A command that waits for Get -/

/-- `Put` has returned, the getter goes on, and a command has not come out. -/
structure State.Waiting (σ : State S C) : Prop where
  going : σ.getter ≠ .ended
  chosen : σ.putter.chosen = []
  signals : σ.putter.signals = 0
  left : σ.accepted ≠ σ.delivered

section

variable {accepts : S → C → Bool} {key : C → Bool} {σ σ' : State S C}

/-- One command waits at most. -/
theorem Inv.pending_le (h : Inv accepts key σ) : σ.pending.length ≤ 1 := by
  have htoken := h.token
  have hheld : σ.getter.held.length = σ.getter.holds := by cases σ.getter <;> rfl
  have hchosen : σ.putter.chosen.length ≤ σ.putter.claims := by
    cases σ.putter <;> simp [PutPc.chosen, PutPc.claims]
  have hbuffer : (if σ.unread then [σ.buffer] else []).length = σ.unread.toNat := by
    cases σ.unread <;> rfl
  unfold State.pending
  rw [List.length_append, List.length_append, hheld, hbuffer]
  omega

/-- While a command waits, the unit is not with the putter. -/
theorem Inv.waiting (h : Inv accepts key σ) (hw : σ.Waiting) :
    σ.notFull = 0 ∧ σ.putter.claims = 0 ∧ (σ.getter.holds = 1 ∨ σ.unread = true) := by
  have htoken := h.token
  have hpending : σ.getter.holds = 1 ∨ σ.unread = true := by
    by_contra hnot
    have hholds : σ.getter.holds = 0 := by
      have hle : σ.getter.holds = 0 ∨ σ.getter.holds = 1 := by
        cases σ.getter <;> first | exact .inl rfl | exact .inr rfl
      rcases hle with hle | hle
      · exact hle
      · exact absurd (.inl hle) hnot
    have hun : σ.unread = false := by
      cases hu : σ.unread with
      | false => rfl
      | true => exact absurd (.inr hu) hnot
    apply hw.left
    have haccount := h.account
    unfold State.pending at haccount
    rw [GetPc.held_of_holds hholds, hun, hw.chosen] at haccount
    simpa using haccount
  rcases hpending with hholds | hun
  · exact ⟨by omega, by omega, .inl hholds⟩
  · rw [hun, Bool.toNat_true] at htoken
    exact ⟨by omega, by omega, .inr hun⟩

/-- A command that neither the getter nor `buffered` has is on `notEmpty`. -/
theorem Inv.unit_ready (h : Inv accepts key σ) (hw : σ.Waiting) (hfree : σ.getter.Free)
    (hbuf : σ.buffered = false) : 0 < σ.notEmpty := by
  obtain ⟨_, _, hholds | hun⟩ := h.waiting hw
  · rw [hfree.holds] at hholds
    cases hholds
  · have hunread := h.unread
    rw [hw.signals, hfree.picks, hbuf, hun, Bool.toNat_true, Bool.toNat_false] at hunread
    omega

/-- While a command waits, `Put` is not past its first wait. -/
theorem Inv.put_blocked (h : Inv accepts key σ) (hw : σ.Waiting) : Put accepts σ = none := by
  obtain ⟨hfull, hclaims, _⟩ := h.waiting hw
  have hsignals := hw.signals
  unfold Put
  cases hpc : σ.putter with
  | idle => rfl
  | wait c =>
      simp only
      rw [if_neg (by omega)]
  | test c =>
      rw [hpc] at hclaims
      cases hclaims
  | write c =>
      rw [hpc] at hclaims
      cases hclaims
  | signal =>
      rw [hpc] at hsignals
      cases hsignals
  | refuse =>
      rw [hpc] at hclaims
      cases hclaims

/-- A statement of `Get` lets the command wait on or brings it out. -/
theorem GetStep.waiting [BEq C] {D : Device S C} (h : GetStep D σ σ')
    (hinv : Inv D.accepts D.key σ) (hw : σ.Waiting) :
    σ.accepted <+: σ'.delivered ∨
      σ'.Waiting ∧ σ'.accepted = σ.accepted ∧ σ'.delivered = σ.delivered := by
  obtain ⟨hput, hacc, hdel | ⟨c, hdel⟩⟩ := h.frame
  · refine .inr ⟨⟨hdel.2, ?_, ?_, ?_⟩, hacc, hdel.1⟩
    · rw [hput]
      exact hw.chosen
    · rw [hput]
      exact hw.signals
    · rw [hacc, hdel.1]
      exact hw.left
  · -- the accounts of both states leave room for one command only
    refine .inl ?_
    have haccount := hinv.account
    have haccount' := (h.inv hinv).account
    rw [hacc, hdel] at haccount'
    have hlen : σ.accepted.length ≤ σ.delivered.length + 1 := by
      have hle := hinv.pending_le
      rw [haccount, List.length_append]
      omega
    have hnil : σ'.pending = [] := by
      rw [haccount', List.length_append, List.length_append, List.length_singleton] at hlen
      apply List.eq_nil_of_length_eq_zero
      omega
    rw [haccount', hnil, hdel, List.append_nil]

end

end RtaiDemos.Clock.Sem
