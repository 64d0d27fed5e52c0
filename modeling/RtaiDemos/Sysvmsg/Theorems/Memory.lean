import RtaiDemos.Sysvmsg.Logic.Kept
import RtaiDemos.Sysvmsg.Stored
import RtaiDemos.Sysvmsg.Theorems.Segments

/-!
# The memory of the messages

Over a whole run: the functions on the blocks keep the books of the memory
(`Ledger`), and each step keeps the blocks that are allocated equal to the chains
of the messages that somebody can still reach (`Holds`).
-/

namespace RtaiDemos.Sysvmsg

namespace Segments

variable {m m' : Memory} {a : Nat}

/-! ## The books of the memory -/

/-- A block that was given out is allocated or has been freed, once. -/
structure Ledger (m : Memory) : Prop where
  once : m.freed.Nodup
  given : ∀ b ∈ m.freed, b < m.next
  split : ∀ b, (m.block b).isSome ↔ b < m.next ∧ b ∉ m.freed

theorem Ledger.beyond (h : Ledger m) {b : Nat} (hb : m.next ≤ b) : m.block b = none := by
  cases hblock : m.block b with
  | none => rfl
  | some v =>
      have hlt := ((h.split b).mp (by rw [hblock]; rfl)).1
      omega

theorem Ledger.kmalloc (h : Ledger m) (alen : Nat) : Ledger (m.kmalloc alen).2 := by
  refine ⟨h.once, fun b hb => Nat.lt_succ_of_lt (h.given b hb), ?_⟩
  intro b
  show (Function.update m.block m.next _ b).isSome ↔ b < m.next + 1 ∧ b ∉ m.freed
  by_cases hb : b = m.next
  · subst hb
    have hnew : m.next ∉ m.freed := fun hin => Nat.lt_irrefl _ (h.given _ hin)
    simp [hnew]
  · rw [Function.update_of_ne hb, h.split b]
    refine and_congr_left fun _ => ?_
    omega

theorem Ledger.modify (h : Ledger m) {f : Block → Block} (hm : m.modify a f = some m') :
    Ledger m' := by
  obtain ⟨v, hv, rfl⟩ := Option.map_eq_some_iff.mp hm
  refine ⟨h.once, h.given, ?_⟩
  intro b
  show (Function.update m.block a _ b).isSome ↔ b < m.next ∧ b ∉ m.freed
  rw [← h.split b]
  by_cases hb : b = a
  · subst hb
    simp [hv]
  · rw [Function.update_of_ne hb]

theorem Ledger.kfree (h : Ledger m) (hm : m.kfree a = some m') : Ledger m' := by
  obtain ⟨v, hv, rfl⟩ := Option.map_eq_some_iff.mp hm
  obtain ⟨hlt, hnot⟩ := (h.split a).mp (by rw [hv]; rfl)
  refine ⟨?_, ?_, ?_⟩
  · simpa using h.once.concat hnot
  · intro b hb
    rcases List.mem_append.mp hb with hb | hb
    · exact h.given b hb
    · rw [List.mem_singleton.mp hb]
      exact hlt
  · intro b
    show (Function.update m.block a none b).isSome ↔ b < m.next ∧ b ∉ m.freed ++ [a]
    by_cases hb : b = a
    · subst hb
      simp
    · rw [Function.update_of_ne hb, h.split b]
      simp [hb]

theorem Ledger.freeSegs (fuel : Nat) (h : Ledger m) {p : Option Nat}
    (hm : freeSegs fuel m p = some m') : Ledger m' := by
  induction fuel generalizing m p with
  | zero =>
      cases p with
      | none =>
          cases hm
          exact h
      | some a => cases hm
  | succ fuel ih =>
      cases p with
      | none =>
          cases hm
          exact h
      | some a =>
          obtain ⟨v, -, hm⟩ := Option.bind_eq_some_iff.mp hm
          obtain ⟨m₁, hfree, hrest⟩ := Option.bind_eq_some_iff.mp hm
          exact ih (h.kfree hfree) hrest

theorem Ledger.free_msg (h : Ledger m) (hm : free_msg m a = some m') : Ledger m' := by
  rw [free_msg_eq] at hm
  exact h.freeSegs _ hm

theorem Ledger.outErr (h : Ledger m) {err : Errno} {r : Except Errno Nat × Memory}
    (hr : outErr m a err = some r) : Ledger r.2 := by
  obtain ⟨m', hm, rfl⟩ := Option.map_eq_some_iff.mp hr
  exact h.free_msg hm

theorem Ledger.loadSegs (L : Layout) (space : Bool) (o : Nat → BlockEnv) (msg : Nat) {pseg : Nat}
    {src : List UInt8} {len n : Nat} (h : Ledger m) {r : Except Errno Nat × Memory}
    (hr : loadSegs L space o msg pseg src len n m = some r) : Ledger r.2 := by
  induction len using Nat.strong_induction_on generalizing pseg src n m with
  | _ len ih =>
      rw [Segments.loadSegs] at hr
      split at hr
      · cases hr
        exact h
      · simp only at hr
        split at hr
        · exact h.outErr hr
        · obtain ⟨m₁, h₁, hr⟩ := Option.bind_eq_some_iff.mp hr
          obtain ⟨m₂, h₂, hr⟩ := Option.bind_eq_some_iff.mp hr
          have hlinked := ((h.kmalloc _).modify h₁).modify h₂
          split at hr
          · exact hlinked.outErr hr
          · obtain ⟨m₃, h₃, hr⟩ := Option.bind_eq_some_iff.mp hr
            refine ih _ ?_ (hlinked.modify h₃) hr
            have := L.room
            split <;> omega

theorem Ledger.load_msg (L : Layout) (space : Bool) (o : Nat → BlockEnv) (src : List UInt8)
    (len : Nat) (h : Ledger m) {r : Except Errno Nat × Memory}
    (hr : load_msg L space o src len m = some r) : Ledger r.2 := by
  rw [Segments.load_msg] at hr
  simp only at hr
  split at hr
  · cases hr
    exact h
  · obtain ⟨m₁, h₁, hr⟩ := Option.bind_eq_some_iff.mp hr
    have hfirst := (h.kmalloc _).modify h₁
    split at hr
    · exact hfirst.outErr hr
    · obtain ⟨m₂, h₂, hr⟩ := Option.bind_eq_some_iff.mp hr
      exact (hfirst.modify h₂).loadSegs L space o _ hr

/-- A block of a chain is allocated. -/
theorem Chain.allocated {p : Option Nat} {l : List (Nat × List UInt8)} {q : Option Nat}
    (h : Chain m.node p l q) {b : Nat} (hb : b ∈ l.map Prod.fst) : (m.block b).isSome := by
  induction h with
  | here => cases hb
  | next hnode _ ih =>
      rcases List.mem_cons.mp hb with rfl | hb
      · rw [node_eq_some.mp hnode]
        rfl
      · exact ih hb

end Segments

/-! ## The blocks of the messages -/

open Segments (Memory Ledger Building Released texts freeSegs_chain)

/-- The blocks that are allocated are the chains of the messages in reach. -/
structure Holds (L : Layout) (σ : Stored) (chain : Msg → List (Nat × List UInt8)) : Prop where
  size : ∀ m, σ.core.Reach m → m.m_ts = m.m_text.length
  starts : ∀ m, σ.core.Reach m → Chain σ.mem.node (some (σ.addr m.mid)) (chain m) none
  holds : ∀ m, σ.core.Reach m → (chain m).map Prod.snd = texts L m.m_text
  nodup : ∀ m, σ.core.Reach m → ((chain m).map Prod.fst).Nodup
  apart : ∀ m m' b, σ.core.Reach m → σ.core.Reach m' → b ∈ (chain m).map Prod.fst →
    b ∈ (chain m').map Prod.fst → m = m'
  owned : ∀ b, (σ.mem.block b).isSome → ∃ m, σ.core.Reach m ∧ b ∈ (chain m).map Prod.fst

/-- The invariant of a run over the memory. -/
structure Sound (P : Params) (L : Layout) (σ : Stored) : Prop where
  running : σ.fault = false
  reached : (machine P).Reachable σ.core
  ledger : Ledger σ.mem
  blocks : ∃ chain, Holds L σ chain

section Steps

variable {P : Params} {L : Layout} {σ : Stored} {chain : Msg → List (Nat × List UInt8)}

/-- The messages in reach and their blocks stay the same. -/
theorem Holds.same {τ : Stored} (h : Holds L σ chain)
    (hreach : ∀ m, τ.core.Reach m ↔ σ.core.Reach m) (hblock : ∀ b, τ.mem.block b = σ.mem.block b)
    (haddr : τ.addr = σ.addr) : Holds L τ chain := by
  refine ⟨?_, ?_, ?_, ?_, ?_, ?_⟩
  · exact fun m hm => h.size m ((hreach m).mp hm)
  · intro m hm
    rw [haddr]
    exact (h.starts m ((hreach m).mp hm)).congr fun x _ => Segments.node_congr (hblock x.1)
  · exact fun m hm => h.holds m ((hreach m).mp hm)
  · exact fun m hm => h.nodup m ((hreach m).mp hm)
  · exact fun m m' b hm hm' => h.apart m m' b ((hreach m).mp hm) ((hreach m').mp hm')
  · intro b hb
    rw [hblock] at hb
    obtain ⟨m, hm, hin⟩ := h.owned b hb
    exact ⟨m, (hreach m).mpr hm, hin⟩

/-- `free_msg` of a message in reach frees its blocks, and no others. -/
theorem Holds.free (h : Holds L σ chain) (hl : Ledger σ.mem) {m₀ : Msg} (hm₀ : σ.core.Reach m₀) :
    ∃ mem, Segments.free_msg σ.mem (σ.addr m₀.mid) = some mem ∧ Ledger mem ∧
      ∀ core : State, (∀ m, core.Reach m ↔ σ.core.Reach m ∧ m ≠ m₀) →
        Holds L { σ with core := core, mem := mem } chain := by
  have hchain := h.starts m₀ hm₀
  have hlen : (chain m₀).length ≤ σ.mem.next + 1 := by
    have hsub : (chain m₀).map Prod.fst ⊆ List.range σ.mem.next := by
      intro b hb
      exact List.mem_range.mpr ((hl.split b).mp (Segments.Chain.allocated hchain hb)).1
    have hle := ((h.nodup m₀ hm₀).subperm hsub).length_le
    rw [List.length_map, List.length_range] at hle
    omega
  obtain ⟨mem, hfree, -, -, hgone, hkept⟩ := freeSegs_chain _ hchain (h.nodup m₀ hm₀) hlen
  rw [← Segments.free_msg_eq] at hfree
  refine ⟨mem, hfree, hl.free_msg hfree, ?_⟩
  intro core hreach
  -- another message has none of the blocks
  have hsame : ∀ m, core.Reach m → ∀ b ∈ (chain m).map Prod.fst,
      mem.block b = σ.mem.block b := by
    intro m hm b hb
    obtain ⟨hold, hne⟩ := (hreach m).mp hm
    exact hkept b fun hin => hne (h.apart m m₀ b hold hm₀ hb hin)
  refine ⟨?_, ?_, ?_, ?_, ?_, ?_⟩
  · exact fun m hm => h.size m ((hreach m).mp hm).1
  · intro m hm
    exact (h.starts m ((hreach m).mp hm).1).congr fun x hx =>
      Segments.node_congr (hsame m hm x.1 (List.mem_map_of_mem hx))
  · exact fun m hm => h.holds m ((hreach m).mp hm).1
  · exact fun m hm => h.nodup m ((hreach m).mp hm).1
  · exact fun m m' b hm hm' => h.apart m m' b ((hreach m).mp hm).1 ((hreach m').mp hm').1
  · intro b hb
    have hnot : b ∉ (chain m₀).map Prod.fst := by
      intro hin
      have hb : (mem.block b).isSome := hb
      rw [hgone b hin] at hb
      cases hb
    have hb : (mem.block b).isSome := hb
    rw [hkept b hnot] at hb
    obtain ⟨m, hm, hin⟩ := h.owned b hb
    refine ⟨m, (hreach m).mpr ⟨hm, ?_⟩, hin⟩
    rintro rfl
    exact hnot hin

/-- `load_msg` has built the chain of a new message. -/
theorem Holds.load (h : Holds L σ chain) (hl : Ledger σ.mem) {mem : Memory}
    {new : List (Nat × List UInt8)} (hnew : Building σ.mem mem new) (hl' : Ledger mem) {m₀ : Msg}
    (hsize : m₀.m_ts = m₀.m_text.length) (htexts : new.map Prod.snd = texts L m₀.m_text)
    (hmid : ∀ m, σ.core.Reach m → m.mid ≠ m₀.mid) {core : State}
    (hreach : ∀ m, core.Reach m ↔ σ.core.Reach m ∨ m = m₀) :
    Holds L { σ with
      core := core, mem := mem, addr := Function.update σ.addr m₀.mid σ.mem.next }
      (Function.update chain m₀ new) := by
  have hfresh : ∀ b ∈ new.map Prod.fst, σ.mem.next ≤ b := by
    intro b hb
    rw [hnew.addrs, List.mem_range'_1] at hb
    exact hb.1
  have hlow : ∀ m, σ.core.Reach m → ∀ b ∈ (chain m).map Prod.fst, b < σ.mem.next :=
    fun m hm b hb => ((hl.split b).mp (Segments.Chain.allocated (h.starts m hm) hb)).1
  -- the chains of the other messages are those they had
  have hold : ∀ m, σ.core.Reach m → Function.update chain m₀ new m = chain m ∧
      Function.update σ.addr m₀.mid σ.mem.next m.mid = σ.addr m.mid := by
    intro m hm
    have hne : m ≠ m₀ := fun heq => hmid m hm (by rw [heq])
    exact ⟨Function.update_of_ne hne _ _, Function.update_of_ne (hmid m hm) _ _⟩
  have hself : Function.update chain m₀ new m₀ = new := Function.update_self _ _ _
  refine ⟨?_, ?_, ?_, ?_, ?_, ?_⟩
  · intro m hm
    rcases (hreach m).mp hm with hm | rfl
    · exact h.size m hm
    · exact hsize
  · intro m hm
    rcases (hreach m).mp hm with hm | rfl
    · show Chain mem.node (some (Function.update σ.addr m₀.mid σ.mem.next m.mid)) _ none
      rw [(hold m hm).1, (hold m hm).2]
      exact (h.starts m hm).congr fun x hx =>
        Segments.node_congr (hnew.kept x.1 (hlow m hm x.1 (List.mem_map_of_mem hx)))
    · show Chain mem.node (some (Function.update σ.addr m.mid σ.mem.next m.mid)) _ none
      rw [hself, Function.update_self]
      exact hnew.chain
  · intro m hm
    rcases (hreach m).mp hm with hm | rfl
    · rw [(hold m hm).1]
      exact h.holds m hm
    · rw [hself]
      exact htexts
  · intro m hm
    rcases (hreach m).mp hm with hm | rfl
    · rw [(hold m hm).1]
      exact h.nodup m hm
    · rw [hself, hnew.addrs]
      exact List.nodup_range'
  · intro m m' b hm hm' hb hb'
    rcases (hreach m).mp hm with hwas | rfl
    · rw [(hold m hwas).1] at hb
      rcases (hreach m').mp hm' with hwas' | rfl
      · rw [(hold m' hwas').1] at hb'
        exact h.apart m m' b hwas hwas' hb hb'
      · rw [hself] at hb'
        exact absurd (hlow m hwas b hb) (Nat.not_lt.mpr (hfresh b hb'))
    · rw [hself] at hb
      rcases (hreach m').mp hm' with hwas' | rfl
      · rw [(hold m' hwas').1] at hb'
        exact absurd (hlow m' hwas' b hb') (Nat.not_lt.mpr (hfresh b hb))
      · rfl
  · intro b hb
    have hb : (mem.block b).isSome := hb
    by_cases hlt : b < σ.mem.next
    · rw [hnew.kept b hlt] at hb
      obtain ⟨m, hm, hin⟩ := h.owned b hb
      refine ⟨m, (hreach m).mpr (.inl hm), ?_⟩
      rw [(hold m hm).1]
      exact hin
    · refine ⟨m₀, (hreach m₀).mpr (.inr rfl), ?_⟩
      have hnext := ((hl'.split b).mp hb).1
      rw [hself, hnew.addrs, List.mem_range'_1]
      rw [hnew.next] at hnext
      exact ⟨Nat.not_lt.mp hlt, hnext⟩

/-- A load that failed leaves the blocks as they were. -/
theorem released_block {m₀ m : Memory} (hl : Ledger m₀) (hl' : Ledger m) (h : Released m₀ m)
    (b : Nat) : m.block b = m₀.block b := by
  by_cases hlt : b < m₀.next
  · exact h.kept b hlt
  · rw [hl.beyond (Nat.not_lt.mp hlt)]
    by_cases hlt' : b < m.next
    · exact h.gone b (Nat.not_lt.mp hlt) hlt'
    · exact hl'.beyond (Nat.not_lt.mp hlt')

/-! ## What the steps do to the messages in reach -/

/-- A step that neither loads nor frees. -/
theorem reach_same {σ σ' : State} {l : Label} (hr : (machine P).Reachable σ)
    (h : step P σ l = some σ') (hnext : σ'.nextMsg = σ.nextMsg)
    (hfreed : σ'.hist.freed = σ.hist.freed) (m : Msg) : σ'.Reach m ↔ σ.Reach m := by
  have hp' := (placed_invariant P σ' (step_reachable hr h)).1
  constructor
  · intro hm
    rcases (step_reach hr h).2 m hm with hold | hnew
    · exact hold
    · obtain ⟨p, -, hat⟩ := hm
      have hlt := hp'.fresh m p hat
      omega
  · intro hm
    rcases step_stays hr h hm with hnow | hgone
    · exact hnow
    · have hlen := congrArg List.length (hgone.symm.trans hfreed)
      simp at hlen

/-- A step that frees a message. -/
theorem reach_freed {σ σ' : State} {l : Label} (hr : (machine P).Reachable σ)
    (h : step P σ l = some σ') (hnext : σ'.nextMsg = σ.nextMsg) {m₀ : Msg}
    (hfreed : σ'.hist.freed = σ.hist.freed ++ [m₀]) (m : Msg) :
    σ'.Reach m ↔ σ.Reach m ∧ m ≠ m₀ := by
  have hp' := (placed_invariant P σ' (step_reachable hr h)).1
  have hgone : ¬ σ'.Reach m₀ := by
    rcases step_freed hr h with hsame | ⟨m₁, happ, -, hgone⟩
    · have hlen := congrArg List.length (hfreed.symm.trans hsame)
      simp at hlen
    · rw [hfreed, List.append_cancel_left_eq, List.singleton_inj] at happ
      rw [happ]
      exact hgone
  constructor
  · intro hm
    refine ⟨?_, fun heq => hgone (heq ▸ hm)⟩
    rcases (step_reach hr h).2 m hm with hold | hnew
    · exact hold
    · obtain ⟨p, -, hat⟩ := hm
      have hlt := hp'.fresh m p hat
      omega
  · rintro ⟨hm, hne⟩
    rcases step_stays hr h hm with hnow | happ
    · exact hnow
    · rw [hfreed, List.append_cancel_left_eq, List.singleton_inj] at happ
      exact absurd happ.symm hne

/-- A step that loads a message. -/
theorem reach_loaded {σ σ' : State} {l : Label} (hr : (machine P).Reachable σ)
    (h : step P σ l = some σ') {t : Tid} {τ : State}
    (hτ : ∀ u, (τ.tasks u).pc = (σ.tasks u).pc) (hhist : τ.hist = σ.hist)
    {a : SndArgs} {m₀ : Msg} (hσ' : σ' = τ.setPc t (.sndLock a m₀)) (m : Msg) :
    σ'.Reach m ↔ σ.Reach m ∨ m = m₀ := by
  have hp := (placed_invariant P σ hr).1
  have hp' := (placed_invariant P σ' (step_reachable hr h)).1
  have hhist' : σ'.hist = σ.hist := by rw [hσ', State.setPc_hist, hhist]
  constructor
  · intro hm
    rcases (step_reach hr h).2 m hm with hold | hnew
    · exact .inl hold
    · obtain ⟨p, -, hat⟩ := hm
      -- nothing that was somewhere before has this number
      have hno : ∀ p, ¬ σ.At m p := fun p hold => Nat.not_le.mpr (hp.fresh m p hold) hnew
      cases hpast : p.past with
      | true =>
          have hsent := (hp'.sent m).mpr ⟨p, hpast, hat⟩
          unfold State.Sent at hsent
          rw [hhist'] at hsent
          obtain ⟨p₀, -, hold⟩ := (hp.sent m).mp hsent
          exact absurd hold (hno p₀)
      | false =>
          cases p with
          | owner u =>
              rw [hσ', State.At, State.setPc_tasks] at hat
              split at hat
              · cases hat
                exact .inr rfl
              · rw [hτ] at hat
                exact absurd hat (hno (.owner u))
          | _ => cases hpast
  · rintro (hm | rfl)
    · rcases step_stays hr h hm with hnow | hgone
      · exact hnow
      · rw [hhist'] at hgone
        have hlen := congrArg List.length hgone
        simp at hlen
    · refine ⟨.owner t, rfl, ?_⟩
      rw [hσ', State.At, State.setPc_tasks, if_pos rfl]
      rfl

/-! ## The steps over the memory -/

theorem Sound.plain (h : Sound P L σ) {l : Label} {σ' : Stored} (hs : σ.plain P l = some σ')
    (hquiet : ∀ core, step P σ.core l = some core →
      core.nextMsg = σ.core.nextMsg ∧ core.hist.freed = σ.core.hist.freed) : Sound P L σ' := by
  obtain ⟨core, hstep, rfl⟩ := Option.map_eq_some_iff.mp hs
  obtain ⟨hnext, hfreed⟩ := hquiet core hstep
  obtain ⟨chain, hholds⟩ := h.blocks
  exact ⟨h.running, step_reachable h.reached hstep, h.ledger, chain,
    hholds.same (reach_same h.reached hstep hnext hfreed) (fun _ => rfl) rfl⟩

theorem Sound.free (h : Sound P L σ) {l : Label} {msg : Msg} (hm : σ.core.Reach msg)
    {σ' : Stored} (hs : σ.free P l msg = some σ')
    (hfrees : ∀ core, step P σ.core l = some core →
      core.nextMsg = σ.core.nextMsg ∧ core.hist.freed = σ.core.hist.freed ++ [msg]) :
    Sound P L σ' := by
  obtain ⟨chain, hholds⟩ := h.blocks
  obtain ⟨mem, hfree, hledger, hafter⟩ := hholds.free h.ledger hm
  rw [Stored.free, hfree] at hs
  obtain ⟨core, hstep, rfl⟩ := Option.map_eq_some_iff.mp hs
  obtain ⟨hnext, hfreed⟩ := hfrees core hstep
  exact ⟨h.running, step_reachable h.reached hstep, hledger, chain,
    hafter core (reach_freed h.reached hstep hnext hfreed)⟩

/-- What a receiver is left with is what the machine says, for some outcome of the copies. -/
theorem Holds.fetch (h : Holds L σ chain) (io : BlockIo) {t : Tid} {a : RcvArgs} {msg : Msg}
    (hm : σ.core.Reach msg) :
    ∃ e r, σ.fetch L io a msg = some r ∧ copyOut σ.core t e a msg = (σ.core.log fun h =>
      { h with handed := h.handed ++ [(t, msg)], freed := h.freed ++ [msg] }).ret t r := by
  unfold Stored.fetch copyOut
  simp only
  split
  · rename_i huser
    have hspace : a.space = true := (Bool.and_eq_true_iff.mp huser).1
    refine ⟨⟨0, true, false⟩, _, rfl, ?_⟩
    rw [hspace]
    rfl
  · obtain ⟨⟨res, out⟩, hstore, hstored⟩ := Segments.store_msg_stores L a.space io.copies
      (h.starts msg hm) (h.holds msg hm)
      (n := if a.msgsz > msg.m_ts then msg.m_ts else a.msgsz) (by
        rw [← h.size msg hm]
        split <;> omega)
    rw [hstore]
    rcases hstored with hok | ⟨hspace, -, k, hfail⟩
    · cases hok
      refine ⟨⟨0, true, true⟩, _, rfl, ?_⟩
      rw [show (a.space && !true) = false from Bool.and_false _]
      rfl
    · cases hfail
      refine ⟨⟨0, true, false⟩, _, rfl, ?_⟩
      rw [hspace]
      rfl

theorem Sound.copyOut (h : Sound P L σ) {t : Tid} (io : BlockIo) {a : RcvArgs} {msg : Msg}
    (hpc : (σ.core.tasks t).pc = .rcvCopy a msg) (hoops : σ.core.oops = none) :
    Sound P L (σ.copyOut L t io a msg) := by
  have hm : σ.core.Reach msg := ⟨.receiver t, rfl, by simp [State.At, Task.held, hpc]⟩
  obtain ⟨chain, hholds⟩ := h.blocks
  obtain ⟨mem, hfree, hledger, hafter⟩ := hholds.free h.ledger hm
  obtain ⟨e, r, hfetch, hcore⟩ := hholds.fetch io (t := t) (a := a) hm
  have hstep : step P σ.core (.exec t e) = some (Sysvmsg.copyOut σ.core t e a msg) := by
    simp [step, hoops, Sysvmsg.exec, hpc]
  rw [Stored.copyOut, hfetch, hfree]
  simp only
  rw [← hcore]
  exact ⟨h.running, step_reachable h.reached hstep, hledger, chain,
    hafter _ (reach_freed h.reached hstep rfl rfl)⟩

/-- `_rt_msgsnd` up to its first lock: all blocks of the new message, or none. -/
theorem Sound.load (h : Sound P L σ) {t : Tid} {io : BlockIo} {msqid mtype : Int}
    {mtext : List UInt8} {msgflg : BitVec 32} {space : Bool} {r : Option Ret}
    (hpc : (σ.core.tasks t).pc = .idle r)
    (hargs : ¬ (mtext.length > MSGMAX ∨ msqid < 0 ∨ mtype < 1)) {σ' : Stored}
    (hs : σ.load P L t io msqid mtype mtext msgflg space = some σ') : Sound P L σ' := by
  obtain ⟨hlen, hid, htype⟩ : ¬ mtext.length > MSGMAX ∧ ¬ msqid < 0 ∧ ¬ mtype < 1 := by
    simpa only [not_or] using hargs
  obtain ⟨chain, hholds⟩ := h.blocks
  obtain ⟨⟨res, mem⟩, hload, hends, hview⟩ :=
    Segments.load_msg_ends L space io.blocks mtext σ.mem
  have hledger : Ledger mem := h.ledger.load_msg L space io.blocks mtext mtext.length hload
  unfold Stored.load at hs
  rw [hload] at hs
  obtain ⟨core, hstep, rfl⟩ := Option.map_eq_some_iff.mp hs
  have hcore := hstep
  have henv : loadEnv io.now (res.map fun msg => [msg]) =
      loadEnv io.now (Sysvmsg.load_msg L space io.blocks mtext.length σ.mem.heap).1 := by
    rw [hview]
    cases res <;> rfl
  simp only [step, hpc, henv] at hcore
  split at hcore
  · cases hcore
  · rw [enter_msgsnd, if_neg (by simp only [not_or]; exact ⟨hlen, hid⟩), if_neg htype, hview,
      Option.some.injEq] at hcore
    have hr := step_reachable h.reached hstep
    cases res with
    | error err =>
        have hsame := reach_same h.reached hstep (by rw [← hcore]; rfl) (by rw [← hcore]; rfl)
        exact ⟨h.running, hr, hledger, chain,
          hholds.same hsame (released_block h.ledger hledger hends.1) rfl⟩
    | ok msg =>
        obtain ⟨rfl, -, new, hbuilt, htexts⟩ := hends
        rw [List.nil_append] at hbuilt
        have hreach := reach_loaded h.reached hstep (fun u => ?_) (by rfl) hcore.symm
        · have hp := (placed_invariant P σ.core h.reached).1
          refine ⟨h.running, hr, hledger, _,
            hholds.load h.ledger hbuilt hledger (by rfl) htexts ?_ hreach⟩
          rintro m ⟨p, -, hat⟩
          exact Nat.ne_of_lt (hp.fresh m p hat)
        · simp only [State.modT_tasks]
          split
          · rename_i hu
            rw [hu]
          · rfl

/-- A call that loads nothing frees nothing either. -/
theorem enter_quiet (P : Params) (σ : State) (t : Tid) (e : Env) (c : Call)
    (hc : ∀ msqid mtype mtext msgflg space, c = .msgsnd msqid mtype mtext msgflg space →
      mtext.length > MSGMAX ∨ msqid < 0 ∨ mtype < 1) :
    (enter P σ t e c).nextMsg = σ.nextMsg ∧ (enter P σ t e c).hist.freed = σ.hist.freed := by
  cases c with
  | msgsnd msqid mtype mtext msgflg space =>
      rcases hc _ _ _ _ _ rfl with hbad | hbad | hbad
      · simp [enter, hbad]
      · simp [enter, hbad]
      · unfold enter
        simp only
        rw [if_pos hbad, ite_self]
        exact ⟨rfl, rfl⟩
  | msgrcv msqid msgsz msgtyp msgflg space =>
      unfold enter
      simp only
      split <;> exact ⟨rfl, rfl⟩
  | msgctl msqid cmd buf space =>
      unfold enter
      simp only
      split
      · exact ⟨rfl, rfl⟩
      · split
        all_goals first | exact ⟨rfl, rfl⟩ | (split <;> exact ⟨rfl, rfl⟩)
  | msgget key msgflg => exact ⟨rfl, rfl⟩

theorem Sound.call (h : Sound P L σ) {t : Tid} {c : Call} {io : BlockIo} {σ' : Stored}
    (hs : σ.call P L t c io = some σ') : Sound P L σ' := by
  -- a step that loads nothing
  have hplain : (∀ msqid mtype mtext msgflg space, c = .msgsnd msqid mtype mtext msgflg space →
      mtext.length > MSGMAX ∨ msqid < 0 ∨ mtype < 1) →
      σ.plain P (.call t c io.env) = some σ' → Sound P L σ' := by
    intro hc hs
    refine h.plain hs fun core hstep => ?_
    rcases step_cases hstep with ⟨u, c', e, r, hl, -, rfl⟩ | ⟨u, e, hl, -⟩ | ⟨u, hl, -⟩ |
      ⟨u, b, hl, -⟩
    · cases hl
      exact enter_quiet P _ t io.env c hc
    · cases hl
    · cases hl
    · cases hl
  unfold Stored.call at hs
  split at hs
  · rename_i r msqid mtype mtext msgflg space hpc
    split at hs
    · rename_i hbad
      refine hplain ?_ hs
      rintro _ _ _ _ _ heq
      cases heq
      exact hbad
    · rename_i hargs
      exact h.load hpc hargs hs
  · rename_i hno
    cases hpc : (σ.core.tasks t).pc with
    | idle r =>
        refine hplain ?_ hs
        intro msqid mtype mtext msgflg space hc
        exact absurd hc (hno r msqid mtype mtext msgflg space hpc)
    | _ =>
        obtain ⟨core, hstep, -⟩ := Option.map_eq_some_iff.mp hs
        simp [step, hpc] at hstep

theorem Sound.exec (h : Sound P L σ) {t : Tid} {io : BlockIo} {σ' : Stored}
    (hs : σ.exec P L t io = some σ') : Sound P L σ' := by
  have hexec : ∀ {core : State}, step P σ.core (.exec t io.env) = some core →
      Sysvmsg.exec σ.core t io.env = some core := by
    intro core hstep
    unfold step at hstep
    split at hstep
    · cases hstep
    · exact hstep
  unfold Stored.exec at hs
  split at hs
  · rename_i err msg hpc
    refine h.free ⟨.owner t, rfl, by simp [State.At, hpc, Pc.owned]⟩ hs fun core hstep => ?_
    have hx := hexec hstep
    simp only [Sysvmsg.exec, hpc, Option.some.injEq] at hx
    rw [← hx]
    exact ⟨rfl, rfl⟩
  · rename_i q msg rest hpc
    refine h.free ⟨.dying q, rfl, t, _, hpc, List.mem_cons_self⟩ hs fun core hstep => ?_
    have hx := hexec hstep
    simp only [Sysvmsg.exec, hpc, Option.some.injEq] at hx
    rw [← hx]
    exact ⟨rfl, rfl⟩
  · rename_i a msg hpc
    split at hs
    · cases hs
    · rename_i hoops
      cases hs
      exact h.copyOut io hpc (by simpa using hoops)
  · rename_i hsnd hctl hrcv
    refine h.plain hs fun core hstep => ?_
    have hx := hexec hstep
    refine ⟨exec_nextMsg hx, ?_⟩
    rcases exec_freed hx with hsame | ⟨err, m, hpc, -⟩ | ⟨a, m, hpc, -⟩ | ⟨q, m, rest, hpc, -⟩
    · exact hsame
    · exact absurd hpc (hsnd err m)
    · exact absurd hpc (hrcv a m)
    · exact absurd hpc (hctl q m rest)

theorem Sound.next (h : Sound P L σ) {l : BlockLabel} {σ' : Stored}
    (hs : σ.next P L l = some σ') : Sound P L σ' := by
  unfold Stored.next at hs
  rw [h.running] at hs
  simp only [Bool.false_eq_true, if_false] at hs
  cases l with
  | call t c io => exact h.call hs
  | exec t io => exact h.exec hs
  | resume t =>
      refine h.plain hs fun core hstep => ?_
      rcases step_cases hstep with ⟨u, c, e, r, hl, -⟩ | ⟨u, e, hl, -⟩ | ⟨u, hl, hx⟩ | ⟨u, b, hl, -⟩
      · cases hl
      · cases hl
      · unfold resume at hx
        split at hx
        · cases hx
          exact ⟨rfl, rfl⟩
        · cases hx
          exact ⟨rfl, rfl⟩
        · cases hx
      · cases hl
  | signal t b =>
      refine h.plain hs fun core hstep => ?_
      rcases step_cases hstep with ⟨u, c, e, r, hl, -⟩ | ⟨u, e, hl, -⟩ | ⟨u, hl, -⟩ |
        ⟨u, b', -, rfl⟩
      · cases hl
      · cases hl
      · cases hl
      · exact ⟨rfl, rfl⟩

end Steps

theorem sound_invariant (P : Params) (L : Layout) : (storedMachine P L).Invariant (Sound P L) := by
  refine TSys.Invariant.of_inductive ?_ fun σ σ' l h hs => h.next hs
  rintro ⟨core, mem, addr, fault⟩ ⟨hcore, ⟨stale, rfl⟩, rfl⟩
  have hnone : ∀ m, ¬ core.Reach m := by
    rintro m ⟨p, -, hat⟩
    have hlt := (placed_invariant P core (.init hcore)).1.fresh m p hat
    obtain ⟨cred, rfl⟩ := hcore
    exact Nat.not_lt_zero _ hlt
  refine ⟨rfl, .init hcore, ⟨List.nodup_nil, nofun, ?_⟩, fun _ => [], ?_, ?_, ?_, ?_, ?_, ?_⟩
  · intro b
    simp
  · exact fun m hm => absurd hm (hnone m)
  · exact fun m hm => absurd hm (hnone m)
  · exact fun m hm => absurd hm (hnone m)
  · exact fun m hm => absurd hm (hnone m)
  · exact fun m _ _ hm => absurd hm (hnone m)
  · intro b hb
    cases hb

/-- In every run over the memory no pointer is followed to a block that is not there
and no block is freed twice; what the calls return is what the machine says, so a
receiver gets the bytes that were loaded. A block that was given out is allocated or
freed, and the allocated blocks are those of the messages that somebody can still
reach: each such block belongs to one of them, and a message's blocks hold its text. -/
theorem blocks_of_messages (P : Params) (L : Layout) : (storedMachine P L).Invariant fun σ =>
    σ.fault = false ∧ (machine P).Reachable σ.core ∧ σ.mem.freed.Nodup ∧
      (∀ b, (σ.mem.block b).isSome ↔ b < σ.mem.next ∧ b ∉ σ.mem.freed) ∧
      ∃ chain : Msg → List (Nat × List UInt8),
        (∀ m, σ.core.Reach m → Chain σ.mem.node (some (σ.addr m.mid)) (chain m) none ∧
          (chain m).map Prod.snd = texts L m.m_text) ∧
        ∀ b, (σ.mem.block b).isSome ↔ ∃! m, σ.core.Reach m ∧ b ∈ (chain m).map Prod.fst := by
  intro σ hr
  obtain ⟨hrun, hreached, hledger, chain, h⟩ := sound_invariant P L σ hr
  refine ⟨hrun, hreached, hledger.once, hledger.split, chain, ?_, ?_⟩
  · exact fun m hm => ⟨h.starts m hm, h.holds m hm⟩
  · intro b
    constructor
    · intro hb
      obtain ⟨m, hm, hin⟩ := h.owned b hb
      exact ⟨m, ⟨hm, hin⟩, fun m' hm' => h.apart m' m b hm'.1 hm hm'.2 hin⟩
    · rintro ⟨m, ⟨hm, hin⟩, -⟩
      exact Segments.Chain.allocated (h.starts m hm) hin

end RtaiDemos.Sysvmsg
