import RtaiDemos.Sysvmsg.Logic.Freed
import RtaiDemos.Sysvmsg.Theorems.Accounting

/-!
# No message is dropped

The other half of `Freed`: a message in reach stays there until it is freed. A
sender keeps what it has loaded until it sends it or frees it (`step_owned`),
and a message leaves the receivers and the removals only to be freed
(`step_past`).
-/

namespace RtaiDemos.Sysvmsg

/-! ## What has been handed out or purged -/

/-- The two lists of messages that are out of reach, and how many were loaded. -/
def State.past (σ : State) : List (Tid × Msg) × List Msg × Nat :=
  (σ.hist.handed, σ.hist.purged, σ.nextMsg)

theorem pipelined_send_past (q : QId) (m : Msg) (e : Env) (l : List Tid) (σ : State) :
    (pipelined_send q m e l σ).1.past = σ.past := by
  induction l generalizing σ with
  | nil => rfl
  | cons u rest ih =>
      simp only [pipelined_send]
      split
      · split
        · exact ih _
        · rfl
      · exact ih σ

theorem ss_del_past (σ : State) (t : Tid) : (ss_del σ t).past = σ.past := by
  rcases ss_del_cases σ t with ⟨o, heq⟩ | ⟨q, heq⟩
  · rw [heq]
    rfl
  · rw [heq]
    rfl

theorem deliver_past (σ : State) (t : Tid) (e : Env) (m : Msg) (q : QId) (l : List Tid) :
    (deliver σ t e m q l).past = σ.past := by
  have hsend := pipelined_send_past q m e l (σ.modQ q fun msq =>
    { msq with q_lspid := (σ.tasks t).cred.pid, q_stime := e.now })
  unfold deliver
  revert hsend
  simp only
  generalize pipelined_send q m e l _ = r
  obtain ⟨σ₁, sent⟩ := r
  intro hsend
  cases sent <;> exact hsend

theorem sndRetry_past (σ : State) (t : Tid) (e : Env) (a : SndArgs) (m : Msg) (q : QId) :
    (sndRetry σ t e a m q).past = σ.past := by
  unfold sndRetry
  split
  · rfl
  · split_ifs
    · rfl
    · rfl
    · rfl
    · rfl
    · exact deliver_past σ t e m q _

theorem rcvRetry_past (σ : State) (t : Tid) (e : Env) (a : RcvArgs) (q : QId) :
    (rcvRetry σ t e a q).past = σ.past := by
  unfold rcvRetry
  split
  · rfl
  · split
    · rfl
    · split
      · rfl
      · split
        · split
          · rfl
          · unfold unlink
            simp only
            rw [ss_wakeup_eq]
            rfl
        · split <;> rfl

theorem ctlBody_past (σ : State) (t : Tid) (e : Env) (a : CtlArgs) :
    (ctlBody σ t e a).past = σ.past := by
  have hset : ∀ q msq, (ipcSet σ e q msq a.setbuf).past = σ.past := by
    intro q msq
    unfold ipcSet
    rw [ss_wakeup_eq, expunge_all_eq]
    rfl
  have hfree : (freeque σ t a.msqid).past = σ.past := by
    unfold freeque
    split
    · rfl
    · split
      · rfl
      · simp only
        rw [expel_eq]
        rfl
  unfold ctlBody
  split
  · rfl
  · split
    · rfl
    · simp only
      split_ifs
      · rfl
      · rfl
      · rfl
      · exact hset _ _
      · exact hfree

/-- A stretch that frees nothing hands out nothing and purges nothing. -/
theorem exec_past {σ σ' : State} {t : Tid} {e : Env} (h : exec σ t e = some σ')
    (hfreed : σ'.hist.freed = σ.hist.freed) : σ'.past = σ.past := by
  have hgrows : ∀ m : Msg, σ.hist.freed ++ [m] ≠ σ.hist.freed := by
    intro m hm
    have hlen := congrArg List.length hm
    simp at hlen
  have hdown : ∀ pc, down σ t pc = some σ' → σ'.past = σ.past := by
    intro pc hd
    unfold down at hd
    split at hd
    · cases hd
      rfl
    · cases hd
  unfold exec at h
  cases hpc : (σ.tasks t).pc with
  | idle r => rw [hpc] at h; cases h
  | sndSleep a m => rw [hpc] at h; cases h
  | rcvSleep a q => rw [hpc] at h; cases h
  | sndFree err m =>
      rw [hpc] at h
      cases h
      exact absurd hfreed (hgrows m)
  | rcvCopy a m =>
      rw [hpc] at h
      cases h
      exact absurd hfreed (hgrows m)
  | ctlFree q rest =>
      rw [hpc] at h
      cases h
      cases rest with
      | nil =>
          simp only [freeStep]
          split <;> rfl
      | cons m rest => exact absurd hfreed (hgrows m)
  | sndLock a m =>
      rw [hpc] at h
      simp only at h
      split at h
      · cases h
        rfl
      · cases h
        exact sndRetry_past σ t e a m _
  | sndRelock a m =>
      rw [hpc] at h
      cases h
      unfold sndRelock
      split
      · rfl
      · simp only
        split
        · exact ss_del_past σ t
        · rw [sndRetry_past, ss_del_past]
  | rcvLock a =>
      rw [hpc] at h
      simp only at h
      split at h
      · cases h
        rfl
      · cases h
        exact rcvRetry_past σ t e a _
  | rcvRelock a q =>
      rw [hpc] at h
      cases h
      unfold rcvRelock
      split
      · rfl
      · split
        · rfl
        · split
          · rfl
          · split
            · simp only
              split
              · rfl
              · exact rcvRetry_past (r_list_del σ q t) t e a q
            · rfl
        · rfl
  | rcvNull a =>
      rw [hpc] at h
      cases h
      unfold rcvNull
      split <;> rfl
  | ctlDown a => rw [hpc] at h; exact hdown _ h
  | infoDown cmd space => rw [hpc] at h; exact hdown _ h
  | getDown key flg => rw [hpc] at h; exact hdown _ h
  | ctlLock a =>
      rw [hpc] at h
      cases h
      exact ctlBody_past σ t e a
  | statLock i cmd space =>
      rw [hpc] at h
      cases h
      unfold statBody
      split
      · rfl
      · split
        · rfl
        · split_ifs <;> rfl
  | getFind key flg =>
      rw [hpc] at h
      cases h
      unfold getFind
      split
      · rfl
      · split <;> split_ifs <;> rfl
  | getNew key flg =>
      rw [hpc] at h
      simp only at h
      split at h
      · cases h
        rfl
      · cases h
        rfl
  | getAdd key flg size =>
      rw [hpc] at h
      cases h
      unfold newque
      simp only
      split <;> rfl
  | getLock id flg =>
      rw [hpc] at h
      cases h
      unfold getLock
      split
      · rfl
      · split
        · rfl
        · split_ifs <;> rfl
  | infoRead cmd space | getGrow key flg | semUp r =>
      rw [hpc] at h
      cases h
      rfl

/-- Only the message that is freed is handed out or purged. -/
theorem exec_out {σ σ' : State} {t : Tid} {e : Env} (h : exec σ t e = some σ') {m : Msg}
    (hm : σ'.hist.freed ≠ σ.hist.freed ++ [m]) :
    (∀ u, (u, m) ∈ σ'.hist.handed → (u, m) ∈ σ.hist.handed) ∧
      (m ∈ σ'.hist.purged → m ∈ σ.hist.purged) := by
  rcases exec_freed h with hsame | ⟨err, m₀, -, rfl⟩ | ⟨a, m₀, -, rfl⟩ | ⟨q, m₀, rest, -, rfl⟩
  · have hhanded : σ'.hist.handed = σ.hist.handed := congrArg Prod.fst (exec_past h hsame)
    have hpurged : σ'.hist.purged = σ.hist.purged := congrArg (fun x => x.2.1) (exec_past h hsame)
    rw [hhanded, hpurged]
    exact ⟨fun _ hu => hu, id⟩
  · exact ⟨fun _ hu => hu, id⟩
  · have hne : m ≠ m₀ := fun heq => hm (by rw [heq]; rfl)
    refine ⟨?_, id⟩
    intro u hu
    rcases List.mem_append.mp hu with hu | hu
    · exact hu
    · exact absurd (congrArg Prod.snd (List.mem_singleton.mp hu)) hne
  · have hne : m ≠ m₀ := fun heq => hm (by rw [heq]; rfl)
    refine ⟨fun _ hu => hu, ?_⟩
    intro hp
    rcases List.mem_append.mp hp with hp | hp
    · exact hp
    · exact absurd (List.mem_singleton.mp hp) hne

/-- No stretch loads a message. -/
theorem exec_nextMsg {σ σ' : State} {t : Tid} {e : Env} (h : exec σ t e = some σ') :
    σ'.nextMsg = σ.nextMsg := by
  rcases exec_freed h with hsame | ⟨err, m, -, rfl⟩ | ⟨a, m, -, rfl⟩ | ⟨q, m, rest, -, rfl⟩
  · exact congrArg (fun x => x.2.2) (exec_past h hsame)
  · rfl
  · rfl
  · rfl

/-! ## What a sender has loaded -/

theorem deliver_sent (σ : State) (t : Tid) (e : Env) (m : Msg) (q : QId) (l : List Tid) :
    (deliver σ t e m q l).Sent m := by
  refine ⟨q, ?_⟩
  unfold deliver
  simp only
  generalize pipelined_send q m e l _ = r
  obtain ⟨σ₁, sent⟩ := r
  cases sent <;> simp [enqueue]

/-- From `retry` on, the message is sent or is still with its sender. -/
theorem sndRetry_owned {σ : State} {t : Tid} {m : Msg} (h : (σ.tasks t).pc.owned = some m)
    (e : Env) (a : SndArgs) (q : QId) :
    ((sndRetry σ t e a m q).tasks t).pc.owned = some m ∨ (sndRetry σ t e a m q).Sent m := by
  unfold sndRetry
  split
  · exact .inl h
  · split
    · exact .inl (by simp [Pc.owned])
    · split
      · exact .inl (by simp [Pc.owned])
      · split
        · split
          · exact .inl (by simp [Pc.owned])
          · exact .inl (by simp [Pc.owned])
        · exact .inr (deliver_sent σ t e m q _)

theorem ss_del_owned (σ : State) (t : Tid) :
    ((ss_del σ t).tasks t).pc.owned = (σ.tasks t).pc.owned := by
  rcases ss_del_cases σ t with ⟨o, heq⟩ | ⟨q, heq⟩
  · rw [heq]
  · rw [heq]
    simp

/-- A sender keeps its message until it sends it or frees it. -/
theorem exec_owned {σ σ' : State} {t : Tid} {e : Env} {m : Msg} (h : exec σ t e = some σ')
    (hm : (σ.tasks t).pc.owned = some m) :
    (σ'.tasks t).pc.owned = some m ∨ σ'.Sent m ∨ σ'.hist.freed = σ.hist.freed ++ [m] := by
  unfold exec at h
  cases hpc : (σ.tasks t).pc with
  | sndLock a m' =>
      rw [hpc] at h
      obtain rfl : m' = m := by
        rw [hpc] at hm
        exact Option.some.inj hm
      simp only at h
      split at h
      · cases h
        exact .inl (by simp [Pc.owned])
      · cases h
        rcases sndRetry_owned hm e a _ with hown | hsent
        · exact .inl hown
        · exact .inr (.inl hsent)
  | sndSleep a m' => rw [hpc] at h; cases h
  | sndRelock a m' =>
      rw [hpc] at h
      obtain rfl : m' = m := by
        rw [hpc] at hm
        exact Option.some.inj hm
      cases h
      unfold sndRelock
      split
      · exact .inl (by simp [Pc.owned])
      · simp only
        split
        · exact .inl (by simp [Pc.owned])
        · have hown : ((ss_del σ t).tasks t).pc.owned = some m' := by
            rw [ss_del_owned]
            exact hm
          rcases sndRetry_owned hown e a _ with hown | hsent
          · exact .inl hown
          · exact .inr (.inl hsent)
  | sndFree err m' =>
      rw [hpc] at h
      obtain rfl : m' = m := by
        rw [hpc] at hm
        exact Option.some.inj hm
      cases h
      exact .inr (.inr rfl)
  | _ =>
      rw [hpc] at hm
      cases hm

/-! ## A step -/

/-- What a step does to the messages that are with senders or have left. -/
structure Keeps (σ σ' : State) (m : Msg) : Prop where
  owned : ∀ t, (σ.tasks t).pc.owned = some m → (σ'.tasks t).pc.owned = some m ∨ σ'.Sent m
  sent : σ.Sent m → σ'.Sent m
  handed : ∀ t, (t, m) ∈ σ'.hist.handed → (t, m) ∈ σ.hist.handed
  purged : m ∈ σ'.hist.purged → m ∈ σ.hist.purged

theorem step_sent {P : Params} {σ σ' : State} {l : Label} (h : step P σ l = some σ') {m : Msg}
    (hm : σ.Sent m) : σ'.Sent m := by
  rcases step_sends P h with hsame | ⟨q, m', happ, -⟩
  · unfold State.Sent
    rw [hsame]
    exact hm
  · exact (sent_append happ m).mpr (.inl hm)

/-- Every message but the one that a step frees is kept. -/
theorem step_keeps {P : Params} {σ σ' : State} {l : Label} (hw : Wf σ)
    (h : step P σ l = some σ') (m : Msg) :
    Keeps σ σ' m ∨ σ'.hist.freed = σ.hist.freed ++ [m] := by
  have hsent : σ.Sent m → σ'.Sent m := step_sent h
  -- the tasks that do not move keep what they have
  have hother : ∀ t, t ≠ l.task → (σ.tasks t).pc.owned = some m →
      (σ'.tasks t).pc.owned = some m ∨ σ'.Sent m := by
    intro t ht hown
    rw [(step_other hw h (Ne.symm ht)).pc]
    exact .inl hown
  have hquiet : σ'.hist = σ.hist → ((σ.tasks l.task).pc.owned = some m →
      (σ'.tasks l.task).pc.owned = some m ∨ σ'.Sent m) → Keeps σ σ' m := by
    intro hhist hself
    refine ⟨?_, hsent, ?_, ?_⟩
    · intro t hown
      by_cases ht : t = l.task
      · subst ht
        exact hself hown
      · exact hother t ht hown
    · intro t hm
      rw [hhist] at hm
      exact hm
    · intro hm
      rw [hhist] at hm
      exact hm
  rcases step_cases h with ⟨t, c, e, r, rfl, hpc, rfl⟩ | ⟨t, e, rfl, hx⟩ | ⟨t, rfl, hx⟩ |
    ⟨t, b, rfl, rfl⟩
  · obtain ⟨n, pc, he⟩ := enter_eq P (σ.modT t fun k => { k with calls := k.calls + 1 }) t e c
    refine .inl (hquiet (by rw [he]; rfl) ?_)
    intro hown
    rw [show (Label.call t c e).task = t from rfl, hpc] at hown
    cases hown
  · by_cases hfree : σ'.hist.freed = σ.hist.freed ++ [m]
    · exact .inr hfree
    · have hout := exec_out hx hfree
      refine .inl ⟨?_, hsent, hout.1, hout.2⟩
      intro u hown
      by_cases hu : u = t
      · subst hu
        rcases exec_owned hx hown with hkept | hnow | hgone
        · exact .inl hkept
        · exact .inr hnow
        · exact absurd hgone hfree
      · exact hother u hu hown
  · refine .inl ?_
    unfold resume at hx
    split at hx
    · rename_i a m' hpc
      cases hx
      refine hquiet rfl fun hown => .inl ?_
      rw [show (Label.resume t).task = t from rfl, hpc] at hown
      simpa [Pc.owned, Label.task] using hown
    · rename_i a q hpc
      cases hx
      refine hquiet rfl fun hown => ?_
      rw [show (Label.resume t).task = t from rfl, hpc] at hown
      cases hown
    · cases hx
  · refine .inl (hquiet rfl fun hown => .inl ?_)
    simpa [Label.task] using hown

/-- A message in reach stays there, unless the step frees it. -/
theorem step_stays {P : Params} {σ σ' : State} {l : Label} (hr : (machine P).Reachable σ)
    (h : step P σ l = some σ') {m : Msg} (hm : σ.Reach m) :
    σ'.Reach m ∨ σ'.hist.freed = σ.hist.freed ++ [m] := by
  have hp := (placed_invariant P σ hr).1
  have hp' := (placed_invariant P σ' (step_reachable hr h)).1
  rcases step_keeps (wf_invariant P σ hr) h m with hkeeps | hfreed
  · refine .inl ?_
    obtain ⟨p, hreach, hat⟩ := hm
    -- a message that has been sent is somewhere, and not among those out of reach
    have hsent : σ'.Sent m → σ'.Reach m := by
      intro hs
      obtain ⟨p', hpast, hat'⟩ := (hp'.sent m).mp hs
      refine ⟨p', ?_, hat'⟩
      cases p' with
      | returned t =>
          rw [hp.unique m p (.returned t) hat (hkeeps.handed t hat')] at hreach
          cases hreach
      | purged =>
          rw [hp.unique m p .purged hat (hkeeps.purged hat')] at hreach
          cases hreach
      | _ => rfl
    by_cases hpast : p.past = true
    · exact hsent (hkeeps.sent ((hp.sent m).mpr ⟨p, hpast, hat⟩))
    · cases p with
      | owner t =>
          rcases hkeeps.owned t hat with hown | hs
          · exact ⟨.owner t, rfl, hown⟩
          · exact hsent hs
      | _ => exact absurd rfl hpast
  · exact .inr hfreed

end RtaiDemos.Sysvmsg
