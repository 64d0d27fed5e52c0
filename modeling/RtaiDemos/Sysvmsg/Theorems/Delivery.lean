import RtaiDemos.Sysvmsg.Logic.EffectPlaces

/-!
# Delivery: exactly once, no lost wake-up

Every message sent is in one place at every moment of every run, and no task
sleeps on a queue while what it waits for is there.
-/

namespace RtaiDemos.Sysvmsg

/-! ## A run -/

/-- A 64-bit machine whose `ipc_init_ids` got its table. -/
def demoParams : Params := ⟨64, true⟩

/-- All tasks run as one unprivileged user. -/
def demoCred (t : Tid) : Cred := ⟨t, 500, 500, (· == 500), false, false, false⟩

/-- Allocations and copies succeed. -/
def demoEnv : Env := ⟨1, true, true⟩

/-- A task creates a private queue with mode 0666. -/
def createQueue (t : Tid) : List Label :=
  .call t (.msgget IPC_PRIVATE 0o666#32) demoEnv :: List.replicate 6 (.exec t demoEnv)

/-- A task sends one byte under type 1. -/
def sendByte (t : Tid) (msqid : Int) (b : UInt8) : List Label :=
  [.call t (.msgsnd msqid 1 [b] 0#32 false) demoEnv, .exec t demoEnv]

/-- A task removes a queue, up to `msg_unlock`. -/
def startRemoval (t : Tid) (msqid : Int) : List Label :=
  [.call t (.msgctl msqid .ipcRmid none false) demoEnv, .exec t demoEnv, .exec t demoEnv]

/-- The labels, from the start of this machine. -/
def demoRun (labels : List Label) (ask : State → Bool) : Bool :=
  (machine demoParams).leadsTo (initState demoParams demoCred) labels ask

theorem demoRun_reachable {labels : List Label} {ask : State → Bool}
    (h : demoRun labels ask = true) : ∃ σ, (machine demoParams).Reachable σ ∧ ask σ = true :=
  TSys.Reachable.of_leadsTo ⟨demoCred, rfl⟩ h

/-! ## Exactly once -/

/-- The four places of a message that is not on its way from one to another:
on a live queue, with a receiver, handed out, freed with its queue. -/
def Place.settled : Place → Bool
  | .queue _ | .receiver _ | .returned _ | .purged => true
  | .owner _ | .dying _ => false

/-- Every message that `_rt_msgsnd` has sent is in exactly one place: on one
live queue, with one receiver that has not returned, handed to one that has,
freed by `freeque`, or on the list that `freeque` is still working off; and it
is there once. -/
theorem sent_message_in_one_place (P : Params) : (machine P).Invariant fun σ =>
    (∀ m, σ.Sent m → ∃! p, p.past = true ∧ σ.At m p) ∧ Tidy σ := by
  intro σ hreach
  obtain ⟨hplaced, htidy⟩ := placed_invariant P σ hreach
  refine ⟨?_, htidy⟩
  intro m hm
  obtain ⟨p, hpast, hp⟩ := (hplaced.sent m).mp hm
  refine ⟨p, ⟨hpast, hp⟩, ?_⟩
  rintro p' ⟨_, hp'⟩
  exact hplaced.unique m p' p hp' hp

/-- Between `msg_unlock` and `free_msg` in `freeque` a message that was sent
is in none of the settled places. -/
theorem removal_in_progress : ¬ (machine demoParams).Invariant fun σ =>
    ∀ m, σ.Sent m → ∃ p, p.settled = true ∧ σ.At m p := by
  intro hinv
  have hrun : demoRun (createQueue 0 ++ sendByte 0 0 7 ++ startRemoval 0 0)
      (fun σ => decide ((σ.tasks 0).pc = .ctlFree 0 [⟨0, 1, 1, [7]⟩] ∧
        σ.hist.sent = [(0, ⟨0, 1, 1, [7]⟩)])) = true := by
    decide
  obtain ⟨σ, hreach, hask⟩ := demoRun_reachable hrun
  obtain ⟨hpc, hsent⟩ := of_decide_eq_true hask
  obtain ⟨p, hsettled, hp⟩ := hinv σ hreach ⟨0, 1, 1, [7]⟩ ⟨0, by rw [hsent]; simp⟩
  have hdying : σ.At ⟨0, 1, 1, [7]⟩ (.dying 0) := ⟨0, _, hpc, by simp⟩
  rw [(placed_invariant _ σ hreach).1.unique _ p _ hp hdying] at hsettled
  cases hsettled

/-! ## No lost wake-up -/

theorem alert_invariant (P : Params) : (machine P).Invariant fun σ => RcvAlert σ ∧ SndAlert σ := by
  refine invariant_of_effects P ?_ ?_
  · intro cred
    refine ⟨?_, ?_⟩
    · intro q msq _ hq
      cases hq
    · intro q msq _ hq
      cases hq
  · rintro σ σ' hw ⟨hr, hs⟩ e
    exact ⟨e.rcvAlert hw hr, e.sndAlert hw hs⟩

/-- In every reachable state and for every live queue: no message on it passes
`testmsg` for a receiver linked on it, and a sender linked on it that nobody
has woken since has a message that does not fit. -/
theorem no_lost_wakeup (P : Params) : (machine P).Invariant fun σ =>
    ∀ q msq, σ.Live q → σ.queues q = some msq →
      (∀ m ∈ msq.q_messages, ∀ t ∈ msq.q_receivers,
        testmsg m (σ.tasks t).msr_d.r_msgtype (σ.tasks t).msr_d.r_mode = false) ∧
      (∀ t ∈ msq.q_senders, (σ.tasks t).woken = false →
        ∃ a m, (σ.tasks t).pc.sndWaiting = some (a, m) ∧
          ((m.m_ts : Int) + msq.q_cbytes > msq.q_qbytes ∨ 1 + msq.q_qnum > msq.q_qbytes)) := by
  intro σ hreach q msq hlive hq
  obtain ⟨hrcv, hsnd⟩ := alert_invariant P σ hreach
  have hw := wf_invariant P σ hreach
  refine ⟨hrcv q msq hlive hq, ?_⟩
  intro t ht hwoken
  have hlist := (hw.wait.snd_linked q msq hlive hq t).mp ht
  obtain ⟨a, m, hwait, _⟩ := hw.wait.snd_names t q hlist
  refine ⟨a, m, hwait, ?_⟩
  have hfull := hsnd q msq hlive hq t ht hwoken a m hwait
  unfold MsgQueue.full at hfull
  exact of_decide_eq_true hfull

end RtaiDemos.Sysvmsg
