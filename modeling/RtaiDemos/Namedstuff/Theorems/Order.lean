import RtaiDemos.Namedstuff.Logic.Lines

/-!
# The order of the test

Whatever order the tasks run in, the strings come out in turn, one print at a time,
and the strings of the start task are received in the order in which it sends them.
-/

namespace RtaiDemos.Namedstuff

open Threads

variable {n : Nat} [NeZero n] {strs : Nat → String} {σ : Config (threads n strs)}

/-- The thread is between `TAKE_PRINT` and `GIVE_PRINT`. -/
def Prints (σ : Config (threads n strs)) : Thread n → Prop
  | none => (start σ).inside = 1
  | some i => (task σ i).inside = 1

/-- What `print_sem` is for. -/
theorem one_prints (hc : Counts σ) {k k' : Thread n} (hk : Prints σ k) (hk' : Prints σ k') :
    k = k' := by
  have hprint := hc.print
  have hone : ∀ i, (task σ i).inside ≤ ∑ j, (task σ j).inside :=
    fun i => le_sum (fun j => (task σ j).inside) i
  cases k with
  | none =>
      cases k' with
      | none => rfl
      | some j =>
          have hj := hone j
          simp only [Prints] at hk hk'
          omega
  | some i =>
      cases k' with
      | none =>
          have hi := hone i
          simp only [Prints] at hk hk'
          omega
      | some j =>
          by_contra hne
          have hij : i ≠ j := fun h => hne (congrArg some h)
          have htwo := Finset.add_le_sum (f := fun j => (task σ j).inside)
            (fun _ _ => Nat.zero_le _) (Finset.mem_univ i) (Finset.mem_univ j) hij
          simp only [Prints] at hk hk'
          omega

omit [NeZero n] in
theorem range_le {m : Nat} (h : m ≤ n) : List.range m <+: List.range n := by
  obtain ⟨d, rfl⟩ := Nat.exists_eq_add_of_le h
  rw [List.range_add]
  exact List.prefix_append _ _

/-- The strings that have gone through `mbx_in`. -/
theorem received_in_order (h : (tally n strs).Balanced σ) :
    (σ.got .mbx_in).map Prod.snd <+: (List.range n).map strs := by
  have hsent := h.sent_by (m := .mbx_in) (k := none) fun k hk => by
    cases k with
    | none => exact absurd rfl hk
    | some i => rfl
  have hstart := (start σ).order
  have hle : (start σ).sent ≤ n := hstart.2.2.2.2.2.2.1
  have hpart : (List.range (start σ).sent).map strs <+: (List.range n).map strs :=
    List.IsPrefix.map strs (range_le hle)
  refine List.IsPrefix.trans ?_ hpart
  refine ⟨σ.box .mbx_in, ?_⟩
  rw [← h.fifo, hsent]
  rfl

/-- In every state of every run: the first lines are out in order, one thread prints at
a time, nobody uses `sync_sem` or `prio_sem` before they are made, the strings sent to
`mbx_in` are received in order, and a timed receive finds it empty. -/
theorem strings_in_turn (n : Nat) [NeZero n] (strs : Nat → String) (σ : Config (threads n strs))
    (h : (threads n strs).machine.Reachable σ) :
    (σ.log <+: firstLines n strs ∨ firstLines n strs <+: σ.log) ∧
      (∀ k k', Prints σ k → Prints σ k' → k = k') ∧
      (start σ = .create → ∀ i, task σ i = .ringWait 0) ∧
      (σ.got .mbx_in).map Prod.snd <+: (List.range n).map strs ∧
      ((∀ m, σ.late m = 0) ∧ ∀ i, task σ i = .receiveTimed → σ.box .mbx_in = []) := by
  have hc := reachable_counts h
  have hph := reachable_phases σ h
  refine ⟨?_, fun k k' => one_prints hc, ?_, ?_, hph.late, fun i => hph.mbx_in_empty hc⟩
  · have hprinted : Printed σ := reachable_printed σ h
    rcases Nat.le_total σ.log.length (firstLines n strs).length with hle | hle
    · left
      rw [← List.take_of_length_le hle, hprinted]
      exact List.take_prefix _ _
    · right
      have hlength := congrArg List.length hprinted
      rw [List.length_take, List.length_take, Nat.min_eq_left hle] at hlength
      rw [← List.take_of_length_le (i := printed σ) (l := firstLines n strs) (by omega),
        ← hprinted]
      exact List.take_prefix _ _
  · intro hcreate
    exact hph.idle (by rw [hcreate]; rfl)
  · exact received_in_order (balanced (tally n strs) σ h)

/-- Two tasks; the first has printed. -/
theorem strings_in_turn_first :
    let strs := fun k => if k = 0 then "Joey    " else "Johnny  "
    ∃ σ, (threads 2 strs).machine.run (threads 2 strs).initial
        [(none, false), (none, false), (some 0, false), (some 0, false), (some 0, false)] = some σ ∧
      σ.log = ["Joey    "] ∧ (σ.log <+: firstLines 2 strs ∨ firstLines 2 strs <+: σ.log) := by
  intro strs
  obtain ⟨σ, hrun, hlog⟩ : ∃ σ, (threads 2 strs).machine.run (threads 2 strs).initial
      [(none, false), (none, false), (some 0, false), (some 0, false), (some 0, false)] = some σ ∧
      σ.log = ["Joey    "] := ⟨_, rfl, rfl⟩
  exact ⟨σ, hrun, hlog, (strings_in_turn 2 strs σ (TSys.Reachable.of_run rfl hrun)).1⟩

end RtaiDemos.Namedstuff
