import RtaiDemos.Sysvmsg.Logic.Simulation

/-!
# Nobody waits for what is there

`RcvAlert`: no queued message is one that a linked receiver accepts.
`SndAlert`: a linked sender nobody has woken has a message that does not fit.
Both are preserved by every effect.
-/

namespace RtaiDemos.Sysvmsg

/-! ## Receivers -/

/-- No message on a live queue passes `testmsg` for a receiver linked on it. -/
def RcvAlert (σ : State) : Prop :=
  ∀ q msq, σ.Live q → σ.queues q = some msq → ∀ m ∈ msq.q_messages, ∀ t ∈ msq.q_receivers,
    (σ.tasks t).msr_d.accepts m = false

/-- What a receiver asks for. -/
def MsgReceiver.selector (r : MsgReceiver) : SearchMode × Int := (r.r_mode, r.r_msgtype)

theorem MsgReceiver.accepts_congr {r r' : MsgReceiver} (h : r'.selector = r.selector) (m : Msg) :
    r'.accepts m = r.accepts m := by
  simp only [MsgReceiver.selector, Prod.mk.injEq] at h
  simp only [MsgReceiver.accepts, h.1, h.2]

/-- Messages and receivers may leave a queue. -/
def MsgQueue.FewerWaits (msq msq' : MsgQueue) : Prop :=
  (∀ m ∈ msq'.q_messages, m ∈ msq.q_messages) ∧ ∀ t ∈ msq'.q_receivers, t ∈ msq.q_receivers

theorem MsgQueue.FewerWaits.refl (msq : MsgQueue) : msq.FewerWaits msq :=
  ⟨fun _ h => h, fun _ h => h⟩

theorem RcvAlert.frame {σ σ' : State} (h : RcvAlert σ) (hlive : ∀ q, σ'.Live q → σ.Live q)
    (hq : State.QRel MsgQueue.FewerWaits σ σ')
    (ht : ∀ t, (σ'.tasks t).msr_d.selector = (σ.tasks t).msr_d.selector) : RcvAlert σ' := by
  intro q msq' hl hq' m hm t htq
  obtain ⟨msq, hmsq, hms, hrs⟩ := hq q msq' hq'
  rw [MsgReceiver.accepts_congr (ht t)]
  exact h q msq (hlive q hl) hmsq m (hms m hm) t (hrs t htq)

/-- Moving a task to another control point keeps its selector, and so on for
every update of one task that leaves `msr_d` alone. -/
theorem selector_modT (σ : State) (t : Tid) (f : Task → Task)
    (hf : (f (σ.tasks t)).msr_d.selector = (σ.tasks t).msr_d.selector) (u : Tid) :
    ((σ.modT t f).tasks u).msr_d.selector = (σ.tasks u).msr_d.selector := by
  rw [State.modT_tasks]
  split
  · rename_i h
    rw [h]
    exact hf
  · rfl

theorem selector_setPc (σ : State) (t : Tid) (pc : Pc) (u : Tid) :
    ((σ.setPc t pc).tasks u).msr_d.selector = (σ.tasks u).msr_d.selector :=
  selector_modT σ t _ rfl u

theorem selector_expelled (k : Task) (r s : Prop) [Decidable r] [Decidable s] :
    (k.expelled r s).msr_d.selector = k.msr_d.selector := by
  by_cases h : r <;> simp [Task.expelled, MsgReceiver.selector, h]

theorem Effect.rcvAlert {σ σ' : State} (hw : Wf σ) (h : RcvAlert σ) (e : Effect σ σ') :
    RcvAlert σ' := by
  have hrefl := MsgQueue.FewerWaits.refl
  cases e with
  | quiet t pc => exact h.frame (fun _ => id) (.of_eq hrefl rfl) (selector_setPc σ t pc)
  | touch t f _ msr =>
      exact h.frame (fun _ => id) (.of_eq hrefl rfl) (selector_modT σ t f (by rw [msr]))
  | newMsg t a m => exact h.frame (fun _ => id) (.of_eq hrefl rfl) (selector_setPc _ t _)
  | freeMsg l => exact h
  | down t pc => exact h.frame (fun _ => id) (.of_eq hrefl rfl) (selector_setPc _ t pc)
  | up t pc => exact h.frame (fun _ => id) (.of_eq hrefl rfl) (selector_setPc _ t pc)
  | linkSnd q t a m =>
      refine h.frame (fun _ => id) (.modQ hrefl rfl fun m _ => hrefl m) fun u => ?_
      rw [selector_setPc]
      simp only [ss_add, State.modQ_tasks]
      exact selector_modT σ t _ (by rfl) u
  | unlinkSnd q t a m =>
      refine h.frame (fun _ => id) (.modQ hrefl rfl fun m _ => hrefl m) fun u => ?_
      rw [selector_setPc, State.modQ_tasks]
      exact selector_modT σ t _ (by rfl) u
  | linkRcv q t a msq pc queue names nothing =>
      intro p msq' hl hp m hm u hu
      have hl : σ.Live p := hl
      simp only [rcvLink, State.setPc_queues, State.modQ_queues, State.modT_queues] at hp
      split at hp
      · -- the queue it links on holds nothing it accepts
        rename_i hpq
        rw [queue, Option.map_some, Option.some.injEq] at hp
        subst hp hpq
        by_cases hut : u = t
        · subst hut
          simpa [rcvLink, MsgReceiver.accepts] using nothing m hm
        · have hu : u ∈ msq.q_receivers := by simpa [hut] using hu
          simpa [rcvLink, hut] using h p msq hl queue m hm u hu
      · -- on another queue it is not linked
        have hut : u ≠ t := by
          rintro rfl
          obtain ⟨b, hb⟩ := (hw.wait.rcv_linked p msq' hl hp u).mp hu
          rw [Task.rcvLinked_none (by rw [pc]; rfl)] at hb
          cases hb
        simpa [rcvLink, hut] using h p msq' hl hp m hm u hu
  | unlinkRcv q t a =>
      refine h.frame (fun _ => id) (.modQ hrefl rfl fun m _ => ?_) (selector_setPc _ t _)
      exact ⟨fun _ hm => hm, fun _ hu => List.mem_of_mem_erase hu⟩
  | tooBig q u msq =>
      refine h.frame (fun _ => id) (.modQ hrefl rfl fun m _ => ?_) fun v => ?_
      · exact ⟨fun _ hm => hm, fun _ hu => List.mem_of_mem_erase hu⟩
      · rw [State.modQ_tasks]
        exact selector_modT σ u _ (by rfl) v
  | handoff q u t a m msq pid now r =>
      refine h.frame (fun _ => id) (.modQ hrefl rfl fun m _ => ?_) fun v => ?_
      · exact ⟨fun _ hm => hm, fun _ hu => List.mem_of_mem_erase hu⟩
      · rw [selector_setPc, State.log_tasks, State.modQ_tasks]
        exact selector_modT σ u _ (by rfl) v
  | enqueue q t a m msq r pc live queue nobody =>
      intro p msq' hl hp m' hm' u hu
      have hl : σ.Live p := hl
      rw [MsgReceiver.accepts_congr (selector_setPc _ t _ u)]
      simp only [State.setPc_queues, State.log_queues] at hp
      change (σ.modQ q _).queues p = some msq' at hp
      rw [State.modQ_queues] at hp
      split at hp
      · rename_i hpq
        subst hpq
        rw [queue, Option.map_some, Option.some.injEq] at hp
        subst hp
        rcases List.mem_append.mp hm' with hm' | hm'
        · exact h p msq hl queue m' hm' u hu
        · rw [List.mem_singleton.mp hm']
          exact nobody u hu
      · exact h p msq' hl hp m' hm' u hu
  | stamp q _ _ _ _ =>
      exact h.frame (fun _ => id) (.modQ hrefl rfl fun m _ => hrefl m) (fun _ => rfl)
  | dequeue q t a m msq pid now =>
      refine h.frame (fun _ => id) (.modQ hrefl rfl fun m _ => ?_) (selector_setPc _ t _)
      exact ⟨fun _ hm => List.mem_of_mem_erase hm, fun _ hu => hu⟩
  | setq q msq b mode now =>
      exact h.frame (fun _ => id) (.modQ hrefl rfl fun m _ => hrefl m) (fun _ => rfl)
  | remove q t msqid ids msq _ _ rmid queue =>
      rw [expel_eq]
      refine h.frame ?_ (.of_eq hrefl rfl) fun u => ?_
      · exact fun p hp => live_of_rmid rmid hp
      · rw [selector_setPc]
        exact selector_expelled _ _ _
  | purge q t m rest => exact h.frame (fun _ => id) (.of_eq hrefl rfl) (selector_setPc _ t _)
  | release q t msq _ queue =>
      simp only [freeStep, queue]
      exact h.frame (fun _ => id) (.free hrefl rfl) (selector_setPc _ t _)
  | create t e key msgflg size ids id seq pc add =>
      intro p msq' hl hp m hm u hu
      rw [MsgReceiver.accepts_congr (selector_setPc _ t _ u)]
      rcases hw.tab.create_live (hw.tab.add_size pc) add hl hp with ⟨_, rfl⟩ | ⟨hl, hp⟩
      · cases hm
      · exact h p msq' hl hp m hm u hu
  | grow t key msgflg alloc =>
      refine h.frame ?_ (.of_eq hrefl rfl) (selector_setPc _ t _)
      rintro p ⟨i, hi⟩
      exact ⟨i, by rw [← (grow_ary_spec σ.ids MSGMNI alloc).1]; exact hi⟩
  | handed t e a m => exact h.frame (fun _ => id) (.of_eq hrefl rfl) (selector_setPc _ t _)

/-! ## Senders -/

/-- A linked sender that has not been woken has a message that does not fit. -/
def SndAlert (σ : State) : Prop :=
  ∀ q msq, σ.Live q → σ.queues q = some msq → ∀ t ∈ msq.q_senders, (σ.tasks t).woken = false →
    ∀ a m, (σ.tasks t).pc.sndWaiting = some (a, m) → msq.full m.m_ts = true

/-- A full queue stays full, and senders may leave. -/
def MsgQueue.NoRoom (msq msq' : MsgQueue) : Prop :=
  (∀ t ∈ msq'.q_senders, t ∈ msq.q_senders) ∧ ∀ n, msq.full n = true → msq'.full n = true

theorem MsgQueue.NoRoom.refl (msq : MsgQueue) : msq.NoRoom msq :=
  ⟨fun _ h => h, fun _ h => h⟩

/-- A linked sender keeps its message and is not put back to sleep. -/
def Task.KeepsWaiting (k k' : Task) : Prop :=
  k.mss_list.isSome →
    (k'.woken = false → k.woken = false) ∧ k'.pc.sndWaiting = k.pc.sndWaiting

theorem Task.KeepsWaiting.refl (k : Task) : k.KeepsWaiting k := fun _ => ⟨id, rfl⟩

/-- A task linked nowhere as a sender. -/
theorem Task.KeepsWaiting.of_none {k : Task} (h : k.mss_list = none) (k' : Task) :
    k.KeepsWaiting k' := by
  intro hk
  rw [h] at hk
  cases hk

theorem SndAlert.frame {σ σ' : State} (hw : Wf σ) (h : SndAlert σ)
    (hlive : ∀ q, σ'.Live q → σ.Live q) (hq : State.QRel MsgQueue.NoRoom σ σ')
    (ht : ∀ t, (σ.tasks t).KeepsWaiting (σ'.tasks t)) : SndAlert σ' := by
  intro q msq' hl hq' t htq hwk a m hwait
  obtain ⟨msq, hmsq, hss, hfull⟩ := hq q msq' hq'
  have hts := hss t htq
  have hmss := (hw.wait.snd_linked q msq (hlive q hl) hmsq t).mp hts
  obtain ⟨hwoken, hpc⟩ := ht t (by rw [hmss]; rfl)
  rw [hpc] at hwait
  exact hfull _ (h q msq (hlive q hl) hmsq t hts (hwoken hwk) a m hwait)

theorem keepsWaiting_modT (σ : State) (t : Tid) (f : Task → Task)
    (hf : (σ.tasks t).KeepsWaiting (f (σ.tasks t))) (u : Tid) :
    (σ.tasks u).KeepsWaiting ((σ.modT t f).tasks u) := by
  rw [State.modT_tasks]
  split
  · rename_i h
    rw [h]
    exact hf
  · exact .refl _

theorem keepsWaiting_setPc (σ : State) (t : Tid) (pc : Pc) (h : (σ.tasks t).mss_list = none)
    (u : Tid) : (σ.tasks u).KeepsWaiting ((σ.setPc t pc).tasks u) :=
  keepsWaiting_modT σ t _ (.of_none h _) u

theorem Effect.sndAlert {σ σ' : State} (hw : Wf σ) (h : SndAlert σ) (e : Effect σ σ') :
    SndAlert σ' := by
  have hrefl := MsgQueue.NoRoom.refl
  have hnone : ∀ {t : Tid} {pc : Pc}, (σ.tasks t).pc = pc → pc.sndWaiting = none →
      (σ.tasks t).mss_list = none := by
    intro t pc hpc hs
    exact hw.wait.mss_none (by rw [hpc]; exact hs)
  have hplain : ∀ {t : Tid}, (σ.tasks t).pc.plain = true → (σ.tasks t).mss_list = none :=
    fun hp => hw.wait.mss_none (Pc.plain_sndWaiting hp)
  cases e with
  | quiet t pc _ _ snd =>
      refine h.frame hw (fun _ => id) (.of_eq hrefl rfl) (keepsWaiting_modT σ t _ ?_)
      rcases snd with hs | hs
      · exact .of_none hs _
      · exact fun _ => ⟨id, hs⟩
  | touch t f pc _ _ woken =>
      refine h.frame hw (fun _ => id) (.of_eq hrefl rfl) (keepsWaiting_modT σ t f ?_)
      intro _
      refine ⟨?_, by rw [pc]⟩
      intro hf
      cases hk : (σ.tasks t).woken with
      | false => rfl
      | true => rw [woken hk] at hf; cases hf
  | newMsg t a m pc =>
      exact h.frame hw (fun _ => id) (.of_eq hrefl rfl) (keepsWaiting_setPc σ t _ (hplain pc))
  | freeMsg l => exact h
  | down t pc _ old =>
      exact h.frame hw (fun _ => id) (.of_eq hrefl rfl) (keepsWaiting_setPc σ t _ (hplain old))
  | up t pc _ old =>
      exact h.frame hw (fun _ => id) (.of_eq hrefl rfl) (keepsWaiting_setPc σ t _ (hplain old))
  | linkSnd q t a m msq pc queue names full =>
      intro p msq' hl hp u hu hwk b m' hwait
      have hl : σ.Live p := hl
      simp only [ss_add, State.setPc_queues, State.modQ_queues, State.modT_queues] at hp
      by_cases hut : u = t
      · subst hut
        have hb : m' = m := by
          simpa [Pc.sndWaiting, eq_comm] using (congrArg (Option.map Prod.snd) hwait)
        rw [hb]
        split at hp
        · -- the queue it links on is full
          rw [queue, Option.map_some, Option.some.injEq] at hp
          subst hp
          exact full
        · -- on another queue it is not linked
          have := (hw.wait.snd_linked p msq' hl hp u).mp hu
          rw [hnone pc rfl] at this
          cases this
      · have hwk' : (σ.tasks u).woken = false := by simpa [ss_add, hut] using hwk
        have hwait' : (σ.tasks u).pc.sndWaiting = some (b, m') := by
          simpa [ss_add, hut] using hwait
        split at hp
        · rename_i hpq
          rw [queue, Option.map_some, Option.some.injEq] at hp
          subst hp hpq
          have hu : u ∈ msq.q_senders := by simpa [hut] using hu
          exact h p msq hl queue u hu hwk' b m' hwait'
        · exact h p msq' hl hp u hu hwk' b m' hwait'
  | unlinkSnd q t a m pc list =>
      intro p msq' hl hp u hu hwk b m' hwait
      have hl : σ.Live p := hl
      simp only [State.setPc_queues, State.modQ_queues, State.modT_queues] at hp
      have hut : u ≠ t := by
        rintro rfl
        simp [Pc.sndWaiting] at hwait
      have hwk' : (σ.tasks u).woken = false := by simpa [hut] using hwk
      have hwait' : (σ.tasks u).pc.sndWaiting = some (b, m') := by simpa [hut] using hwait
      split at hp
      · rename_i hpq
        obtain ⟨msq, hmsq, rfl⟩ := Option.map_eq_some_iff.mp hp
        subst hpq
        exact h p msq hl hmsq u (List.mem_of_mem_erase hu) hwk' b m' hwait'
      · exact h p msq' hl hp u hu hwk' b m' hwait'
  | linkRcv q t a msq pc =>
      refine h.frame hw (fun _ => id) (.modQ hrefl rfl fun m _ => hrefl m) fun u => ?_
      by_cases hut : u = t
      · rw [hut]
        exact .of_none (hnone pc rfl) _
      · simpa [rcvLink, hut] using Task.KeepsWaiting.refl (σ.tasks u)
  | unlinkRcv q t a pc =>
      exact h.frame hw (fun _ => id) (.modQ hrefl rfl fun m _ => hrefl m)
        (keepsWaiting_setPc (r_list_del σ q t) t _ (hnone pc rfl))
  | tooBig q u msq =>
      refine h.frame hw (fun _ => id) (.modQ hrefl rfl fun m _ => hrefl m) fun v => ?_
      rw [State.modQ_tasks]
      exact keepsWaiting_modT σ u _ (fun _ => ⟨fun hf => (by cases hf), rfl⟩) v
  | handoff q u t a m msq pid now r pc =>
      refine h.frame hw (fun _ => id) (.modQ hrefl rfl fun m _ => hrefl m) fun v => ?_
      by_cases hvt : v = t
      · rw [hvt]
        exact .of_none (hnone pc rfl) _
      · rw [State.setPc_tasks, if_neg hvt, State.log_tasks, State.modQ_tasks]
        exact keepsWaiting_modT σ u _ (fun _ => ⟨fun hf => (by cases hf), rfl⟩) v
  | enqueue q t a m msq r pc =>
      refine h.frame hw (fun _ => id) (.modQ hrefl rfl fun msq _ => ?_)
        (keepsWaiting_setPc σ t _ (hnone pc rfl))
      refine ⟨fun _ hs => hs, ?_⟩
      intro n hn
      simp only [MsgQueue.full, decide_eq_true_eq] at hn ⊢
      omega
  | stamp q _ _ _ _ =>
      exact h.frame hw (fun _ => id) (.modQ hrefl rfl fun m _ => hrefl m) (fun _ => .refl _)
  | dequeue q t a m msq pid now pc live queue _ woken =>
      intro p msq' hl hp u hu hwk b m' hwait
      have hl : σ.Live p := hl
      simp only [State.setPc_queues, State.log_queues] at hp
      change (σ.modQ q _).queues p = some msq' at hp
      rw [State.modQ_queues] at hp
      have hut : u ≠ t := by
        rintro rfl
        simp [Pc.sndWaiting] at hwait
      have hwk' : (σ.tasks u).woken = false := by simpa [hut] using hwk
      have hwait' : (σ.tasks u).pc.sndWaiting = some (b, m') := by simpa [hut] using hwait
      split at hp
      · -- every sender on this queue has been woken
        rename_i hpq
        rw [queue, Option.map_some, Option.some.injEq] at hp
        subst hp hpq
        rw [woken u hu] at hwk'
        cases hwk'
      · exact h p msq' hl hp u hu hwk' b m' hwait'
  | setq q msq b mode now live queue woken =>
      intro p msq' hl hp u hu hwk c m' hwait
      have hl : σ.Live p := hl
      rw [State.modQ_queues] at hp
      split at hp
      · rename_i hpq
        rw [queue, Option.map_some, Option.some.injEq] at hp
        subst hp hpq
        have := woken u hu
        rw [State.modQ_tasks] at hwk
        rw [this] at hwk
        cases hwk
      · exact h p msq' hl hp u hu hwk c m' hwait
  | remove q t msqid ids msq plain _ rmid queue =>
      rw [expel_eq]
      refine h.frame hw ?_ (.of_eq hrefl rfl) fun u => ?_
      · exact fun p hp => live_of_rmid rmid hp
      · by_cases hut : u = t
        · rw [hut]
          exact .of_none (hplain plain) _
        · rw [State.setPc_tasks, if_neg hut]
          intro _
          refine ⟨fun hf => ?_, rfl⟩
          simp only [Task.expelled] at hf
          split at hf
          · cases hf
          · exact hf
  | purge q t m rest pc =>
      exact h.frame hw (fun _ => id) (.of_eq hrefl rfl) (keepsWaiting_setPc σ t _ (hnone pc rfl))
  | release q t msq pc queue =>
      simp only [freeStep, queue]
      exact h.frame hw (fun _ => id) (.free hrefl rfl) (keepsWaiting_setPc σ t _ (hnone pc rfl))
  | create t e key msgflg size ids id seq pc add =>
      intro p msq' hl hp u hu hwk b m' hwait
      have hut : u ≠ t := by
        rintro rfl
        simp [Pc.sndWaiting] at hwait
      have hwk' : (σ.tasks u).woken = false := by simpa [hut] using hwk
      have hwait' : (σ.tasks u).pc.sndWaiting = some (b, m') := by simpa [hut] using hwait
      rcases hw.tab.create_live (hw.tab.add_size pc) add hl hp with ⟨_, rfl⟩ | ⟨hl, hp⟩
      · cases hu
      · exact h p msq' hl hp u hu hwk' b m' hwait'
  | grow t key msgflg alloc pc =>
      refine h.frame hw ?_ (.of_eq hrefl rfl) (keepsWaiting_setPc σ t _ (hnone pc rfl))
      rintro p ⟨i, hi⟩
      exact ⟨i, by rw [← (grow_ary_spec σ.ids MSGMNI alloc).1]; exact hi⟩
  | handed t e a m pc =>
      exact h.frame hw (fun _ => id) (.of_eq hrefl rfl) (keepsWaiting_setPc σ t _ (hnone pc rfl))

end RtaiDemos.Sysvmsg
