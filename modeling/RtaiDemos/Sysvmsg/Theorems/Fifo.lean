import Mathlib.Data.List.Nodup
import RtaiDemos.Sysvmsg.Theorems.Delivery

/-!
# FIFO per type, over both ways of delivery

For each queue and type, the messages sent are those taken, in the same order,
followed by those still queued. Handing a message to a sleeping receiver keeps
this because nothing the receiver accepts is queued (`RcvAlert`); taking one
off the queue because a scan ends with the first message of its type.
-/

namespace RtaiDemos.Sysvmsg

/-- The entries of a history for one queue and one type. -/
def ofType (l : List (QId × Msg)) (q : QId) (type : Int) : List (QId × Msg) :=
  l.filter fun x => x.1 == q && x.2.m_type == type

/-- The queued messages of one type. -/
def queuedOf (q : QId) (msgs : List Msg) (type : Int) : List (QId × Msg) :=
  (msgs.filter fun m => m.m_type == type).map fun m => (q, m)

/-- What has been sent is what has been taken and what is queued. -/
structure Fifo (σ : State) : Prop where
  known : ∀ x ∈ σ.hist.sent, x.1 < σ.hist.slots.length
  earlier : ∀ q type, ofType σ.hist.taken q type <+: ofType σ.hist.sent q type
  live : ∀ q msq type, σ.Live q → σ.queues q = some msq →
    ofType σ.hist.sent q type = ofType σ.hist.taken q type ++ queuedOf q msq.q_messages type

/-! ## Lists -/

theorem ofType_append_same (l : List (QId × Msg)) (q : QId) (m : Msg) :
    ofType (l ++ [(q, m)]) q m.m_type = ofType l q m.m_type ++ [(q, m)] := by
  simp [ofType, List.filter_append]

theorem ofType_append_other (l : List (QId × Msg)) {q p : QId} {m : Msg} {type : Int}
    (h : ¬ (q = p ∧ m.m_type = type)) : ofType (l ++ [(q, m)]) p type = ofType l p type := by
  have hf : ((q, m).1 == p && (q, m).2.m_type == type) = false := by
    simpa [Bool.eq_false_iff] using h
  simp [ofType, List.filter_append, hf]

theorem queuedOf_append (q : QId) (msgs : List Msg) (m : Msg) (type : Int) :
    queuedOf q (msgs ++ [m]) type =
      queuedOf q msgs type ++ (if m.m_type = type then [(q, m)] else []) := by
  by_cases h : m.m_type = type
  · simp [queuedOf, List.filter_append, h]
  · simp [queuedOf, List.filter_append, h]

theorem queuedOf_eq_nil {q : QId} {msgs : List Msg} {type : Int}
    (h : ∀ m ∈ msgs, m.m_type ≠ type) : queuedOf q msgs type = [] := by
  simpa [queuedOf] using h

/-- The message a scan ends with is the first of its type. -/
theorem queuedOf_erase {q : QId} {mode : SearchMode} {msgtyp : Int} {msgs : List Msg} {m : Msg}
    (h : scan mode msgtyp none msgs = some m) (type : Int) :
    queuedOf q msgs type =
      (if m.m_type = type then [(q, m)] else []) ++ queuedOf q (msgs.erase m) type := by
  obtain ⟨pre, post, rfl, hpre⟩ := scan_spec h
  have hm : m ∉ pre := fun hin => hpre m hin rfl
  rw [List.erase_append_right _ hm, List.erase_cons_head]
  by_cases ht : m.m_type = type
  · subst ht
    have hnil : pre.filter (fun x => x.m_type == m.m_type) = [] := by simpa using hpre
    simp [queuedOf, List.filter_append, hnil]
  · simp [queuedOf, List.filter_append, ht]

/-! ## Effects -/

theorem Fifo.frame {σ σ' : State} (h : Fifo σ) (hlive : ∀ q, σ'.Live q → σ.Live q)
    (hq : State.QRel MsgQueue.SameMessages σ σ') (hsent : σ'.hist.sent = σ.hist.sent)
    (htaken : σ'.hist.taken = σ.hist.taken) (hslots : σ'.hist.slots = σ.hist.slots) :
    Fifo σ' := by
  refine ⟨?_, ?_, ?_⟩
  · rw [hsent, hslots]
    exact h.known
  · rw [hsent, htaken]
    exact h.earlier
  · intro q msq' type hl hq'
    obtain ⟨msq, hmsq, he⟩ := hq q msq' hq'
    rw [hsent, htaken, he]
    exact h.live q msq type (hlive q hl) hmsq

theorem known_append {l : List (QId × Msg)} {n : Nat} (h : ∀ x ∈ l, x.1 < n) {q : QId} {m : Msg}
    (hq : q < n) : ∀ x ∈ l ++ [(q, m)], x.1 < n := by
  intro x hx
  rcases List.mem_append.mp hx with hx | hx
  · exact h x hx
  · rw [List.mem_singleton.mp hx]
    exact hq

theorem Effect.fifo {σ σ' : State} (hw : Wf σ) (hr : RcvAlert σ) (h : Fifo σ)
    (e : Effect σ σ') : Fifo σ' := by
  have hrefl : ∀ msq : MsgQueue, msq.SameMessages msq := fun _ => rfl
  cases e with
  | quiet => exact h.frame (fun _ => id) (.of_eq hrefl rfl) rfl rfl rfl
  | touch => exact h.frame (fun _ => id) (.of_eq hrefl rfl) rfl rfl rfl
  | newMsg => exact h.frame (fun _ => id) (.of_eq hrefl rfl) rfl rfl rfl
  | freeMsg => exact h.frame (fun _ => id) (.of_eq hrefl rfl) rfl rfl rfl
  | down => exact h.frame (fun _ => id) (.of_eq hrefl rfl) rfl rfl rfl
  | up => exact h.frame (fun _ => id) (.of_eq hrefl rfl) rfl rfl rfl
  | linkSnd => exact h.frame (fun _ => id) (.modQ hrefl rfl fun _ _ => rfl) rfl rfl rfl
  | unlinkSnd => exact h.frame (fun _ => id) (.modQ hrefl rfl fun _ _ => rfl) rfl rfl rfl
  | linkRcv => exact h.frame (fun _ => id) (.modQ hrefl rfl fun _ _ => rfl) rfl rfl rfl
  | unlinkRcv => exact h.frame (fun _ => id) (.modQ hrefl rfl fun _ _ => rfl) rfl rfl rfl
  | tooBig => exact h.frame (fun _ => id) (.modQ hrefl rfl fun _ _ => rfl) rfl rfl rfl
  | stamp => exact h.frame (fun _ => id) (.modQ hrefl rfl fun _ _ => rfl) rfl rfl rfl
  | setq => exact h.frame (fun _ => id) (.modQ hrefl rfl fun _ _ => rfl) rfl rfl rfl
  | purge => exact h.frame (fun _ => id) (.of_eq hrefl rfl) rfl rfl rfl
  | handed => exact h.frame (fun _ => id) (.of_eq hrefl rfl) rfl rfl rfl
  | release q t msq _ queue =>
      simp only [freeStep, queue]
      exact h.frame (fun _ => id) (.free hrefl rfl) rfl rfl rfl
  | grow t key msgflg alloc =>
      refine h.frame ?_ (.of_eq hrefl rfl) rfl rfl rfl
      rintro p ⟨i, hi⟩
      exact ⟨i, by rw [← (grow_ary_spec σ.ids MSGMNI alloc).1]; exact hi⟩
  | remove q t msqid ids msq _ _ rmid _ =>
      obtain ⟨_, _, _, _, hent⟩ := ipc_rmid_spec rmid
      rw [expel_eq]
      refine h.frame ?_ (.of_eq hrefl rfl) rfl rfl rfl
      rintro p ⟨i, hi⟩
      change ids.entry i = some p at hi
      rw [hent] at hi
      split at hi
      · cases hi
      · exact ⟨i, hi⟩
  | create t e key msgflg size ids id seq pc add =>
      refine ⟨?_, h.earlier, ?_⟩
      · intro x hx
        simp only [State.setPc_hist, State.log_hist, List.length_append, List.length_singleton]
        exact Nat.lt_succ_of_lt (h.known x hx)
      · intro p msq' type hl hp
        rcases hw.tab.create_live (hw.tab.add_size pc) add hl hp with ⟨rfl, rfl⟩ | ⟨hl, hp⟩
        · -- nothing has been sent to a queue that did not exist
          have hnone : ofType σ.hist.sent σ.hist.slots.length type = [] := by
            simp only [ofType, List.filter_eq_nil_iff, Bool.and_eq_true, beq_iff_eq, not_and]
            intro x hx hq
            exact absurd (h.known x hx) (by rw [hq]; exact Nat.lt_irrefl _)
          have htaken : ofType σ.hist.taken σ.hist.slots.length type = [] := by
            have := h.earlier σ.hist.slots.length type
            rw [hnone] at this
            exact List.prefix_nil.mp this
          show ofType σ.hist.sent _ _ = ofType σ.hist.taken _ _ ++ queuedOf _ [] _
          rw [hnone, htaken]
          rfl
        · exact h.live p msq' type hl hp
  | handoff q u t a m msq pid now r pc live queue linked accepts =>
      -- nothing of the type is queued: the receiver would have accepted it
      have hnil : queuedOf q msq.q_messages m.m_type = [] := by
        refine queuedOf_eq_nil ?_
        intro m' hm' ht
        have := hr q msq live queue m' hm' u linked
        unfold MsgReceiver.accepts at this accepts
        rw [testmsg_congr ht, accepts] at this
        cases this
      have heq := h.live q msq m.m_type live queue
      rw [hnil, List.append_nil] at heq
      refine ⟨?_, ?_, ?_⟩
      · exact known_append h.known (hw.tab.live_lt live)
      · intro p type
        show ofType (σ.hist.taken ++ [(q, m)]) p type <+: ofType (σ.hist.sent ++ [(q, m)]) p type
        by_cases hc : q = p ∧ m.m_type = type
        · obtain ⟨rfl, rfl⟩ := hc
          rewrite [ofType_append_same, ofType_append_same, heq]
          exact List.prefix_rfl
        · rw [ofType_append_other _ hc, ofType_append_other _ hc]
          exact h.earlier p type
      · intro p msq' type hl hp
        show ofType (σ.hist.sent ++ [(q, m)]) p type = ofType (σ.hist.taken ++ [(q, m)]) p type ++ _
        have hrel : State.QRel MsgQueue.SameMessages σ
            (((σ.modT u (·.notified (.msg m))).modQ q fun msq =>
              { msq with
                q_receivers := msq.q_receivers.erase u
                q_lrpid := pid
                q_rtime := now })) := .modQ hrefl rfl fun _ _ => rfl
        obtain ⟨msq₀, hp₀, he⟩ := hrel p msq' hp
        rw [he]
        by_cases hc : q = p ∧ m.m_type = type
        · obtain ⟨rfl, rfl⟩ := hc
          rw [queue] at hp₀
          cases hp₀
          rw [ofType_append_same, ofType_append_same, heq, hnil, List.append_nil]
        · rw [ofType_append_other _ hc, ofType_append_other _ hc]
          exact h.live p msq₀ type hl hp₀
  | enqueue q t a m msq r pc live queue =>
      refine ⟨?_, ?_, ?_⟩
      · exact known_append h.known (hw.tab.live_lt live)
      · intro p type
        refine (h.earlier p type).trans ?_
        show ofType σ.hist.sent p type <+: ofType (σ.hist.sent ++ [(q, m)]) p type
        unfold ofType
        rw [List.filter_append]
        exact List.prefix_append _ _
      · intro p msq' type hl hp
        show ofType (σ.hist.sent ++ [(q, m)]) p type = ofType σ.hist.taken p type ++ _
        change (σ.modQ q _).queues p = some msq' at hp
        rw [State.modQ_queues] at hp
        split at hp
        · rename_i hpq
          subst hpq
          rw [queue, Option.map_some, Option.some.injEq] at hp
          rw [← hp, queuedOf_append, ← List.append_assoc, ← h.live p msq type live queue]
          by_cases ht : m.m_type = type
          · subst ht
            rw [ofType_append_same, if_pos rfl]
          · rw [ofType_append_other _ (fun hc => ht hc.2), if_neg ht, List.append_nil]
        · rename_i hpq
          rw [ofType_append_other _ (fun hc => hpq hc.1.symm)]
          exact h.live p msq' type hl hp
  | dequeue q t a m msq pid now pc live queue found =>
      have heq := fun type => h.live q msq type live queue
      refine ⟨h.known, ?_, ?_⟩
      · intro p type
        show ofType (σ.hist.taken ++ [(q, m)]) p type <+: ofType σ.hist.sent p type
        by_cases hc : q = p ∧ m.m_type = type
        · obtain ⟨rfl, rfl⟩ := hc
          rw [ofType_append_same, heq, queuedOf_erase found, if_pos rfl, ← List.append_assoc]
          exact List.prefix_append _ _
        · rw [ofType_append_other _ hc]
          exact h.earlier p type
      · intro p msq' type hl hp
        show ofType σ.hist.sent p type = ofType (σ.hist.taken ++ [(q, m)]) p type ++ _
        change (σ.modQ q _).queues p = some msq' at hp
        rw [State.modQ_queues] at hp
        split at hp
        · rename_i hpq
          subst hpq
          rw [queue, Option.map_some, Option.some.injEq] at hp
          rw [← hp, heq, queuedOf_erase found]
          by_cases ht : m.m_type = type
          · subst ht
            rw [ofType_append_same, if_pos rfl, List.append_assoc]
          · rw [ofType_append_other _ (fun hc => ht hc.2), if_neg ht, List.nil_append]
        · rename_i hpq
          rw [ofType_append_other _ (fun hc => hpq hc.1.symm)]
          exact h.live p msq' type hl hp

theorem fifo_invariant (P : Params) : (machine P).Invariant fun σ => RcvAlert σ ∧ Fifo σ := by
  refine invariant_of_effects P ?_ ?_
  · intro cred
    refine ⟨?_, ?_, ?_, ?_⟩
    · intro q msq _ hq
      cases hq
    · intro x hx
      cases hx
    · exact fun _ _ => List.prefix_rfl
    · intro q msq _ _ hq
      cases hq
  · rintro σ σ' hw ⟨hr, hf⟩ e
    exact ⟨e.rcvAlert hw hr, e.fifo hw hr hf⟩

/-! ## The order of takings -/

/-- Two elements that stand in this order in a list without repetitions stand
in this order in every initial part of it that has the second one. -/
theorem pair_sublist_of_append {α : Type} {a b : α} {l₁ l₂ : List α} (hnd : (l₁ ++ l₂).Nodup)
    (h : [a, b].Sublist (l₁ ++ l₂)) (hb : b ∈ l₁) : [a, b].Sublist l₁ := by
  obtain ⟨k₁, k₂, hk, h₁, h₂⟩ := List.sublist_append_iff.mp h
  have hout : b ∉ l₂ := fun hin => (List.nodup_append.mp hnd).2.2 b hb b hin rfl
  cases k₂ with
  | nil =>
      rw [hk, List.append_nil]
      exact h₁
  | cons x rest =>
      -- the last element of the pair would be in the second part
      have hlast : b ∈ x :: rest := by
        have : (k₁ ++ x :: rest).getLast? = some b := by rw [← hk]; rfl
        rw [List.getLast?_append_of_ne_nil _ (by simp)] at this
        exact List.mem_of_getLast? this
      exact absurd (h₂.subset hlast) hout

/-- For any two messages of one type sent to one queue: when the one sent
later has been taken (handed to a sleeping receiver or taken off the queue),
the one sent earlier has been taken before it. -/
theorem fifo_per_type (P : Params) : (machine P).Invariant fun σ =>
    σ.hist.sent.Nodup ∧ σ.hist.taken.Nodup ∧
    ∀ q a b, a.m_type = b.m_type → [(q, a), (q, b)].Sublist σ.hist.sent →
      (q, b) ∈ σ.hist.taken → [(q, a), (q, b)].Sublist σ.hist.taken := by
  intro σ hreach
  obtain ⟨_, hfifo⟩ := fifo_invariant P σ hreach
  have hsent : σ.hist.sent.Nodup := List.Nodup.of_map _ (placed_invariant P σ hreach).2.sent
  refine ⟨hsent, ?_, ?_⟩
  · refine List.nodup_iff_count.mpr ?_
    intro x
    have htaken : (ofType σ.hist.taken x.1 x.2.m_type).Nodup :=
      (hsent.filter _).sublist (hfifo.earlier x.1 x.2.m_type).sublist
    have hcount := List.nodup_iff_count.mp htaken x
    unfold ofType at hcount
    rwa [List.count_filter (by simp)] at hcount
  · intro q a b hab hsub hb
    have hkeep : ∀ l : List (QId × Msg), [(q, a), (q, b)].Sublist l →
        [(q, a), (q, b)].Sublist (ofType l q b.m_type) := by
      intro l hl
      have := hl.filter fun x => x.1 == q && x.2.m_type == b.m_type
      simpa [hab, ofType] using this
    obtain ⟨rest, hrest⟩ := hfifo.earlier q b.m_type
    have hin : (q, b) ∈ ofType σ.hist.taken q b.m_type := by simp [ofType, hb]
    have hnd : (ofType σ.hist.taken q b.m_type ++ rest).Nodup := by
      rw [hrest]
      exact hsent.filter _
    have hpair := pair_sublist_of_append hnd (by rw [hrest]; exact hkeep _ hsub) hin
    exact hpair.trans List.filter_sublist

end RtaiDemos.Sysvmsg
