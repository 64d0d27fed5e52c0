import RtaiDemos.Sysvmsg.Logic.EffectPlaces
import RtaiDemos.Sysvmsg.Logic.Calls

/-!
# Every message is freed once

A message can be freed as long as somebody can still reach it: its sender, a
queue, a receiver, the removal of its queue. `Custody` says what an effect does
to the history and to the senders' messages; from it and from `Placed` a message
out of everybody's reach stays there (`step_reach`). The code calls `free_msg`
in three places only (`exec_freed`), each on a message in reach before and out
of reach after, so no message is freed twice.
-/

namespace RtaiDemos.Sysvmsg

/-- The places from which a message can be reached. -/
def Place.reach : Place → Bool
  | .returned _ | .purged => false
  | _ => true

/-- Somebody can reach the message. -/
def State.Reach (σ : State) (m : Msg) : Prop := ∃ p, p.reach = true ∧ σ.At m p

/-! ## Out of reach for good -/

/-- What an effect does to the history and to the messages of senders. -/
structure Custody (σ σ' : State) : Prop where
  next : σ.nextMsg ≤ σ'.nextMsg
  sent : ∀ m, σ'.Sent m → σ.Sent m ∨ ∃ t, σ.At m (.owner t)
  handed : σ.hist.handed ⊆ σ'.hist.handed
  purged : σ.hist.purged ⊆ σ'.hist.purged
  owner : ∀ m t, σ'.At m (.owner t) → σ.At m (.owner t) ∨ σ.nextMsg ≤ m.mid

/-- No sender gets a message; one that is sent was with a sender. -/
theorem Custody.of_owned {σ σ' : State} (hnext : σ'.nextMsg = σ.nextMsg)
    (hsent : σ'.hist.sent = σ.hist.sent ∨ ∃ q m t,
      σ'.hist.sent = σ.hist.sent ++ [(q, m)] ∧ (σ.tasks t).pc.owned = some m)
    (hhanded : σ.hist.handed ⊆ σ'.hist.handed) (hpurged : σ.hist.purged ⊆ σ'.hist.purged)
    (hown : ∀ t, (σ'.tasks t).pc.owned = none ∨ (σ'.tasks t).pc.owned = (σ.tasks t).pc.owned) :
    Custody σ σ' := by
  refine ⟨Nat.le_of_eq hnext.symm, ?_, hhanded, hpurged, ?_⟩
  · intro m hm
    rcases hsent with hsame | ⟨q, m₀, t, happ, ht⟩
    · unfold State.Sent at hm
      rw [hsame] at hm
      exact .inl hm
    · rcases (sent_append happ m).mp hm with hold | rfl
      · exact .inl hold
      · exact .inr ⟨t, ht⟩
  · intro m t hm
    rcases hown t with hnone | hsame
    · rw [State.At, hnone] at hm
      cases hm
    · rw [State.At, hsame] at hm
      exact .inl hm

/-- One task moves to a control point at which it owns nothing new. -/
theorem owned_setPc {σ τ : State} (hτ : ∀ u, (τ.tasks u).pc = (σ.tasks u).pc) (t : Tid) {pc : Pc}
    (h : pc.owned = none ∨ pc.owned = (σ.tasks t).pc.owned) (u : Tid) :
    ((τ.setPc t pc).tasks u).pc.owned = none ∨
      ((τ.setPc t pc).tasks u).pc.owned = (σ.tasks u).pc.owned := by
  rw [State.setPc_tasks]
  split
  · rename_i hu
    rw [hu]
    exact h
  · rw [hτ]
    exact .inr rfl

/-- A change of one task that leaves its control point alone. -/
theorem pc_update (σ : State) (t : Tid) {k : Task} (h : k.pc = (σ.tasks t).pc) (u : Tid) :
    (Function.update σ.tasks t k u).pc = (σ.tasks u).pc := by
  rw [Function.update_apply]
  split
  · rename_i hu
    rw [hu, h]
  · rfl

theorem Effect.custody {σ σ' : State} (e : Effect σ σ') : Custody σ σ' := by
  have hall : ∀ {α : Type} (l : List α), l ⊆ l := fun l => List.Subset.refl l
  have hpc : ∀ u, (σ.tasks u).pc = (σ.tasks u).pc := fun _ => rfl
  cases e with
  | quiet t pc _ _ _ owned =>
      exact .of_owned rfl (.inl rfl) (hall _) (hall _) (owned_setPc hpc t owned)
  | touch t f pc =>
      exact .of_owned rfl (.inl rfl) (hall _) (hall _) fun u =>
        .inr (congrArg Pc.owned (pc_update σ t pc u))
  | newMsg t a m pc _ mid =>
      refine ⟨Nat.le_succ _, fun _ hm => .inl hm, hall _, hall _, ?_⟩
      intro m' u hm'
      rw [State.At, State.setPc_tasks] at hm'
      split at hm'
      · cases hm'
        exact .inr (Nat.le_of_eq mid.symm)
      · exact .inl hm'
  | freeMsg l => exact .of_owned rfl (.inl rfl) (hall _) (hall _) fun _ => .inr rfl
  | down t pc _ _ new =>
      exact .of_owned rfl (.inl rfl) (hall _) (hall _)
        (owned_setPc hpc t (.inl (Pc.plain_owned new)))
  | up t pc _ _ new =>
      exact .of_owned rfl (.inl rfl) (hall _) (hall _)
        (owned_setPc hpc t (.inl (Pc.plain_owned new)))
  | linkSnd q t a m msq pc =>
      exact .of_owned rfl (.inl rfl) (hall _) (hall _)
        (owned_setPc (fun u => pc_update σ t (by rfl) u) t (.inr (by rw [pc]; rfl)))
  | unlinkSnd q t a m pc =>
      exact .of_owned rfl (.inl rfl) (hall _) (hall _)
        (owned_setPc (fun u => pc_update σ t (by rfl) u) t (.inr (by rw [pc]; rfl)))
  | linkRcv q t a msq =>
      exact .of_owned rfl (.inl rfl) (hall _) (hall _)
        (owned_setPc (fun u => pc_update σ t (by rfl) u) t (.inl rfl))
  | unlinkRcv q t a =>
      exact .of_owned rfl (.inl rfl) (hall _) (hall _) (owned_setPc hpc t (.inl rfl))
  | tooBig q u msq =>
      exact .of_owned rfl (.inl rfl) (hall _) (hall _)
        fun v => .inr (congrArg Pc.owned (pc_update σ u (by rfl) v))
  | handoff q u t a m msq pid now r pc =>
      exact .of_owned rfl (.inr ⟨q, m, t, rfl, by rw [pc]; rfl⟩) (hall _) (hall _)
        (owned_setPc (fun v => pc_update σ u (by rfl) v) t (.inl rfl))
  | enqueue q t a m msq r pc =>
      exact .of_owned rfl (.inr ⟨q, m, t, rfl, by rw [pc]; rfl⟩) (hall _) (hall _)
        (owned_setPc hpc t (.inl rfl))
  | stamp q => exact .of_owned rfl (.inl rfl) (hall _) (hall _) fun _ => .inr rfl
  | dequeue q t a m =>
      exact .of_owned rfl (.inl rfl) (hall _) (hall _) (owned_setPc hpc t (.inl rfl))
  | setq q msq => exact .of_owned rfl (.inl rfl) (hall _) (hall _) fun _ => .inr rfl
  | remove q t msqid ids msq =>
      rw [expel_eq]
      exact .of_owned rfl (.inl rfl) (hall _) (hall _) (owned_setPc (fun _ => rfl) t (.inl rfl))
  | purge q t m rest =>
      exact .of_owned rfl (.inl rfl) (hall _) (List.subset_append_left _ _)
        (owned_setPc hpc t (.inl rfl))
  | release q t msq pc queue =>
      simp only [freeStep, queue]
      exact .of_owned rfl (.inl rfl) (hall _) (hall _) (owned_setPc hpc t (.inl rfl))
  | create t =>
      exact .of_owned rfl (.inl rfl) (hall _) (hall _) (owned_setPc hpc t (.inl rfl))
  | grow t =>
      exact .of_owned rfl (.inl rfl) (hall _) (hall _) (owned_setPc hpc t (.inl rfl))
  | handed t e a m =>
      exact .of_owned rfl (.inl rfl) (List.subset_append_left _ _) (hall _)
        (owned_setPc hpc t (.inl rfl))

/-- A message in reach was in reach before, unless it is new. -/
theorem Custody.reach {σ σ' : State} (h : Custody σ σ') (hp : Placed σ) (hp' : Placed σ') {m : Msg}
    (hm : σ'.Reach m) : σ.Reach m ∨ σ.nextMsg ≤ m.mid := by
  obtain ⟨p, hreach, hat⟩ := hm
  by_cases hpast : p.past = true
  · -- it has been sent: now, by its sender, or before
    rcases h.sent m ((hp'.sent m).mpr ⟨p, hpast, hat⟩) with hold | ⟨t, hown⟩
    · obtain ⟨p₀, _, hat₀⟩ := (hp.sent m).mp hold
      -- what was handed out or purged is so still, and in one place only
      have hgone : p₀.reach = true := by
        cases p₀ with
        | returned t =>
            rw [hp'.unique m p (.returned t) hat (h.handed hat₀)] at hreach
            exact hreach
        | purged =>
            rw [hp'.unique m p .purged hat (h.purged hat₀)] at hreach
            exact hreach
        | _ => rfl
      exact .inl ⟨p₀, hgone, hat₀⟩
    · exact .inl ⟨.owner t, rfl, hown⟩
  · cases p with
    | owner t =>
        rcases h.owner m t hat with hold | hnew
        · exact .inl ⟨.owner t, rfl, hold⟩
        · exact .inr hnew
    | _ => exact absurd rfl hpast

/-- A step brings no message back into reach. -/
theorem step_reach {P : Params} {σ σ' : State} {l : Label} (hr : (machine P).Reachable σ)
    (h : step P σ l = some σ') :
    σ.nextMsg ≤ σ'.nextMsg ∧ ∀ m, σ'.Reach m → σ.Reach m ∨ σ.nextMsg ≤ m.mid := by
  have hw := wf_invariant P σ hr
  obtain ⟨hplaced, htidy⟩ := placed_invariant P σ hr
  have hall := (step_effects P hw h).preserve
    (I := fun τ => (Placed τ ∧ Tidy τ) ∧ σ.nextMsg ≤ τ.nextMsg ∧
      ∀ m, τ.Reach m → σ.Reach m ∨ σ.nextMsg ≤ m.mid) ?_ hw
    ⟨⟨hplaced, htidy⟩, Nat.le_refl _, fun _ hm => .inl hm⟩
  · exact hall.2
  · rintro τ τ' hwτ ⟨⟨hpτ, htτ⟩, hle, hback⟩ e
    have hpτ' := e.placed hwτ htτ hpτ
    refine ⟨⟨hpτ', e.tidy hwτ hpτ htτ⟩, Nat.le_trans hle e.custody.next, ?_⟩
    intro m hm
    rcases e.custody.reach hpτ hpτ' hm with hold | hnew
    · exact hback m hold
    · exact .inr (Nat.le_trans hle hnew)

/-! ## Where the code frees -/

theorem ctlBody_freed (σ : State) (t : Tid) (e : Env) (a : CtlArgs) :
    (ctlBody σ t e a).hist.freed = σ.hist.freed := by
  have hset : ∀ q msq, (ipcSet σ e q msq a.setbuf).hist = σ.hist := by
    intro q msq
    unfold ipcSet
    rw [ss_wakeup_eq, expunge_all_eq]
    rfl
  have hfree : (freeque σ t a.msqid).hist = σ.hist := by
    unfold freeque
    split
    · rfl
    · split
      · rfl
      · simp only
        rw [expel_eq]
        rfl
  unfold ctlBody
  split
  · rfl
  · split
    · rfl
    · simp only
      split_ifs
      · rfl
      · rfl
      · rfl
      · exact congrArg History.freed (hset _ _)
      · exact congrArg History.freed hfree

/-- The stretches that call `free_msg`: the end of a failed `_rt_msgsnd`,
`out_success` of `_rt_msgrcv`, the loop of `freeque`. -/
theorem exec_freed {σ σ' : State} {t : Tid} {e : Env} (h : exec σ t e = some σ') :
    σ'.hist.freed = σ.hist.freed ∨
    (∃ err m, (σ.tasks t).pc = .sndFree err m ∧
      σ' = (σ.log fun h => { h with freed := h.freed ++ [m] }).ret t (.err err)) ∨
    (∃ a m, (σ.tasks t).pc = .rcvCopy a m ∧ σ' = copyOut σ t e a m) ∨
    (∃ q m rest, (σ.tasks t).pc = .ctlFree q (m :: rest) ∧ σ' = freeStep σ t q (m :: rest)) := by
  have hsteady : σ'.steady = σ.steady → σ'.hist.freed = σ.hist.freed :=
    fun hs => congrArg (fun x => x.2.2) hs
  have hdown : ∀ pc, down σ t pc = some σ' → σ'.hist.freed = σ.hist.freed := by
    intro pc hd
    unfold down at hd
    split at hd
    · cases hd
      rfl
    · cases hd
  unfold exec at h
  cases hpc : (σ.tasks t).pc with
  | idle r => rw [hpc] at h; cases h
  | sndSleep a m => rw [hpc] at h; cases h
  | rcvSleep a q => rw [hpc] at h; cases h
  | sndFree err m =>
      rw [hpc] at h
      cases h
      exact .inr (.inl ⟨err, m, rfl, rfl⟩)
  | rcvCopy a m =>
      rw [hpc] at h
      cases h
      exact .inr (.inr (.inl ⟨a, m, rfl, rfl⟩))
  | ctlFree q rest =>
      rw [hpc] at h
      cases h
      cases rest with
      | nil =>
          refine .inl ?_
          simp only [freeStep]
          split <;> rfl
      | cons m rest => exact .inr (.inr (.inr ⟨q, m, rest, rfl, rfl⟩))
  | sndLock a m =>
      rw [hpc] at h
      simp only at h
      split at h
      · cases h
        exact .inl rfl
      · cases h
        exact .inl (hsteady (sndRetry_steady _ _ _ _ _ _))
  | sndRelock a m =>
      rw [hpc] at h
      cases h
      exact .inl (hsteady (sndRelock_steady _ _ _ _ _))
  | rcvLock a =>
      rw [hpc] at h
      simp only at h
      split at h
      · cases h
        exact .inl rfl
      · cases h
        exact .inl (hsteady (rcvRetry_steady _ _ _ _ _))
  | rcvRelock a q =>
      rw [hpc] at h
      cases h
      exact .inl (hsteady (rcvRelock_steady _ _ _ _ _))
  | rcvNull a =>
      rw [hpc] at h
      cases h
      refine .inl ?_
      unfold rcvNull
      split <;> rfl
  | ctlDown a => rw [hpc] at h; exact .inl (hdown _ h)
  | infoDown cmd space => rw [hpc] at h; exact .inl (hdown _ h)
  | getDown key flg => rw [hpc] at h; exact .inl (hdown _ h)
  | ctlLock a =>
      rw [hpc] at h
      cases h
      exact .inl (ctlBody_freed σ t e a)
  | statLock i cmd space =>
      rw [hpc] at h
      cases h
      refine .inl ?_
      unfold statBody
      split
      · rfl
      · split
        · rfl
        · split_ifs <;> rfl
  | getFind key flg =>
      rw [hpc] at h
      cases h
      refine .inl ?_
      unfold getFind
      split
      · rfl
      · split <;> split_ifs <;> rfl
  | getNew key flg =>
      rw [hpc] at h
      simp only at h
      split at h
      all_goals
        cases h
        exact .inl rfl
  | getAdd key flg size =>
      rw [hpc] at h
      cases h
      refine .inl ?_
      unfold newque
      simp only
      split <;> rfl
  | getLock id flg =>
      rw [hpc] at h
      cases h
      refine .inl ?_
      unfold getLock
      split
      · rfl
      · split
        · rfl
        · split_ifs <;> rfl
  | infoRead cmd space | getGrow key flg | semUp r =>
      rw [hpc] at h
      cases h
      exact .inl rfl

/-- A step frees nothing, or one message that is in reach before and not after. -/
theorem step_freed {P : Params} {σ σ' : State} {l : Label} (hr : (machine P).Reachable σ)
    (h : step P σ l = some σ') :
    σ'.hist.freed = σ.hist.freed ∨
      ∃ m, σ'.hist.freed = σ.hist.freed ++ [m] ∧ σ.Reach m ∧ ¬ σ'.Reach m := by
  have hp := (placed_invariant P σ hr).1
  have hp' := (placed_invariant P σ' (step_reachable hr h)).1
  rcases step_cases h with ⟨t, c, e, r, rfl, -, rfl⟩ | ⟨t, e, rfl, hx⟩ | ⟨t, rfl, hx⟩ |
    ⟨t, b, rfl, rfl⟩
  · obtain ⟨n, pc, he⟩ := enter_eq P (σ.modT t fun k => { k with calls := k.calls + 1 }) t e c
    rw [he]
    exact .inl rfl
  · rcases exec_freed hx with hsame | ⟨err, m, hpc, rfl⟩ | ⟨a, m, hpc, rfl⟩ |
      ⟨q, m, rest, hpc, rfl⟩
    · exact .inl hsame
    · have hown : σ.At m (.owner t) := by
        rw [State.At, hpc]
        rfl
      refine .inr ⟨m, rfl, ⟨.owner t, rfl, hown⟩, ?_⟩
      -- never sent, and no longer with its sender
      rintro ⟨p, _, hat⟩
      cases hpast : p.past with
      | true =>
          obtain ⟨q, hq⟩ := (hp'.sent m).mpr ⟨p, hpast, hat⟩
          exact hp.owner_not_sent hown (List.mem_map.mpr ⟨(q, m), hq, rfl⟩)
      | false =>
          cases p with
          | owner u =>
              by_cases hu : u = t
              · rw [hu, State.At] at hat
                simp [Pc.owned] at hat
              · have hold : σ.At m (.owner u) := by
                  simpa [State.At, hu] using hat
                exact hu (Place.owner.inj (hp.unique m _ _ hold hown))
          | _ => cases hpast
    · refine .inr ⟨m, rfl, ⟨.receiver t, rfl, ?_⟩, ?_⟩
      · simp [State.At, Task.held, hpc]
      · rintro ⟨p, hreach, hat⟩
        have hret : (copyOut σ t e a m).At m (.returned t) := by
          simp [State.At, copyOut]
        rw [hp'.unique m p _ hat hret] at hreach
        cases hreach
    · refine .inr ⟨m, rfl, ⟨.dying q, rfl, t, _, hpc, List.mem_cons_self⟩, ?_⟩
      rintro ⟨p, hreach, hat⟩
      have hret : (freeStep σ t q (m :: rest)).At m .purged := by
        simp [State.At, freeStep]
      rw [hp'.unique m p _ hat hret] at hreach
      cases hreach
  · unfold resume at hx
    split at hx
    · cases hx
      exact .inl rfl
    · cases hx
      exact .inl rfl
    · cases hx
  · exact .inl rfl

/-- Nothing is freed twice, and what has been freed is out of everybody's
reach. -/
structure FreedOnce (σ : State) : Prop where
  nodup : σ.hist.freed.Nodup
  old : ∀ m ∈ σ.hist.freed, m.mid < σ.nextMsg
  gone : ∀ m ∈ σ.hist.freed, ¬ σ.Reach m

theorem freed_invariant (P : Params) : (machine P).Invariant FreedOnce := by
  intro σ hreach
  induction hreach with
  | init hi =>
      obtain ⟨cred, rfl⟩ := hi
      exact ⟨List.nodup_nil, nofun, nofun⟩
  | @step σ σ' l hr _ hs ih =>
      obtain ⟨hnext, hback⟩ := step_reach hr hs
      -- a message freed before stays out of reach
      have hstay : ∀ m ∈ σ.hist.freed, ¬ σ'.Reach m := by
        intro m hm hnow
        rcases hback m hnow with hold | hnew
        · exact ih.gone m hm hold
        · have := ih.old m hm
          omega
      rcases step_freed hr hs with hsame | ⟨m₀, happ, hbefore, hafter⟩
      · refine ⟨?_, ?_, ?_⟩ <;> rw [hsame]
        · exact ih.nodup
        · exact fun m hm => Nat.lt_of_lt_of_le (ih.old m hm) hnext
        · exact hstay
      · refine ⟨?_, ?_, ?_⟩ <;> rw [happ]
        · simpa using ih.nodup.concat fun hm => ih.gone m₀ hm hbefore
        · intro m hm
          rcases List.mem_append.mp hm with hm | hm
          · exact Nat.lt_of_lt_of_le (ih.old m hm) hnext
          · obtain ⟨p, _, hat⟩ := hbefore
            rw [List.mem_singleton.mp hm]
            exact Nat.lt_of_lt_of_le ((placed_invariant P σ hr).1.fresh m₀ p hat) hnext
        · intro m hm
          rcases List.mem_append.mp hm with hm | hm
          · exact hstay m hm
          · rw [List.mem_singleton.mp hm]
            exact hafter

end RtaiDemos.Sysvmsg
