import RtaiDemos.Sysvmsg.Segments

/-!
# The chain that `load_msg` builds

Its blocks are those that were given out since the call, in order; the last one
points nowhere. That holds at every point where the loop can fail, so `free_msg`
can always follow the chain to its end.
-/

namespace RtaiDemos.Sysvmsg.Segments

/-- What the pointers of a chain see of the memory. -/
def Memory.node (m : Memory) (a : Nat) : Option (Option Nat × List UInt8) :=
  (m.block a).map fun b => (b.next, b.text)

variable {m m₀ : Memory} {p : Option Nat} {l : List (Nat × List UInt8)} {a : Nat}
  {v : List UInt8} {n : Option Nat}

theorem node_eq_some : m.node a = some (n, v) ↔ m.block a = some ⟨n, v⟩ := by
  unfold Memory.node
  cases m.block a with
  | none => simp
  | some b =>
      obtain ⟨bnext, btext⟩ := b
      simp

theorem node_congr {m' : Memory} (h : m'.block a = m.block a) : m'.node a = m.node a := by
  unfold Memory.node
  rw [h]

theorem kmalloc_fst (m : Memory) (alen : Nat) : (m.kmalloc alen).1 = m.next := rfl

theorem modify_eq {b : Block} (h : m.block a = some b) (f : Block → Block) :
    m.modify a f = some { m with block := Function.update m.block a (some (f b)) } := by
  rw [Memory.modify, h]
  rfl

theorem kfree_eq {b : Block} (h : m.block a = some b) :
    m.kfree a =
      some { m with block := Function.update m.block a none, freed := m.freed ++ [a] } := by
  rw [Memory.kfree, h]
  rfl

/-! ## Freeing a chain -/

/-- `free_msg` is its own loop, one round earlier. -/
theorem free_msg_eq (m : Memory) (msg : Nat) : free_msg m msg = freeSegs (m.next + 1) m (some msg) := by
  rw [free_msg, freeSegs]
  cases hb : m.block msg with
  | none => rfl
  | some b =>
      rw [Option.bind_some, Option.bind_some, kfree_eq hb]
      rfl

/-- The loop frees every block of a chain, once and in order. -/
theorem freeSegs_chain (fuel : Nat) (hchain : Chain m.node p l none)
    (hnodup : (l.map Prod.fst).Nodup) (hfuel : l.length ≤ fuel) :
    ∃ m', freeSegs fuel m p = some m' ∧ m'.next = m.next ∧
      m'.freed = m.freed ++ l.map Prod.fst ∧
      (∀ x ∈ l.map Prod.fst, m'.block x = none) ∧
      ∀ x ∉ l.map Prod.fst, m'.block x = m.block x := by
  induction l generalizing m p fuel with
  | nil =>
      cases hchain
      refine ⟨m, ?_, rfl, (List.append_nil _).symm, by simp, fun x _ => rfl⟩
      cases fuel <;> rfl
  | cons x l ih =>
      obtain _ | ⟨hnode, hrest⟩ := hchain
      rename_i b u n
      rw [List.length_cons] at hfuel
      obtain ⟨fuel, rfl⟩ : ∃ k, fuel = k + 1 := ⟨fuel - 1, by omega⟩
      have hblock := node_eq_some.mp hnode
      obtain ⟨hnot, hnodup⟩ := List.nodup_cons.mp hnodup
      have hne : ∀ y ∈ l.map Prod.fst, y ≠ b := fun y hy h => hnot (h ▸ hy)
      have hrest' : Chain (Memory.node
          { m with block := Function.update m.block b none, freed := m.freed ++ [b] }) n l none := by
        refine hrest.congr fun y hy => node_congr ?_
        exact Function.update_of_ne (hne y.1 (List.mem_map_of_mem hy)) _ _
      obtain ⟨m', hfree, hnext, hfreed, hgone, hkept⟩ := ih fuel hrest' hnodup (by omega)
      refine ⟨m', ?_, hnext, ?_, ?_, ?_⟩
      · rw [freeSegs, hblock, Option.bind_some, kfree_eq hblock]
        exact hfree
      · rw [hfreed, List.map_cons, List.append_assoc]
        rfl
      · intro y hy
        rcases List.mem_cons.mp hy with rfl | hy
        · rw [hkept _ hnot]
          exact Function.update_self _ _ _
        · exact hgone y hy
      · intro y hy
        rw [List.map_cons, List.mem_cons, not_or] at hy
        rw [hkept y hy.2]
        exact Function.update_of_ne hy.1 _ _

/-! ## Building it -/

/-- A load that began in `m₀` has got the blocks of `l`. -/
structure Building (m₀ m : Memory) (l : List (Nat × List UInt8)) : Prop where
  chain : Chain m.node (some m₀.next) l none
  addrs : l.map Prod.fst = List.range' m₀.next l.length
  next : m.next = m₀.next + l.length
  freed : m.freed = m₀.freed
  kept : ∀ x < m₀.next, m.block x = m₀.block x

/-- A load that began in `m₀` has given back all it had got. -/
structure Released (m₀ m : Memory) : Prop where
  le : m₀.next ≤ m.next
  freed : m.freed = m₀.freed ++ List.range' m₀.next (m.next - m₀.next)
  kept : ∀ x < m₀.next, m.block x = m₀.block x
  gone : ∀ x, m₀.next ≤ x → x < m.next → m.block x = none

theorem heap_ext {h h' : Heap} (hnext : h.next = h'.next) (hfreed : h.freed = h'.freed) :
    h = h' := by
  cases h
  cases h'
  rw [Heap.mk.injEq]
  exact ⟨hnext, hfreed⟩

/-- Who frees what, without the contents of the blocks. -/
def Memory.heap (m : Memory) : Heap := ⟨m.next, m.freed⟩

/-- Whatever has been built can be given back. -/
theorem Building.release (h : Building m₀ m l) (err : Errno) :
    ∃ m', outErr m m₀.next err = some (.error err, m') ∧ m'.next = m.next ∧ Released m₀ m' ∧
      m'.heap = Sysvmsg.free_msg m.heap (l.map Prod.fst) := by
  have hnext := h.next
  obtain ⟨m', hfree, hnext', hfreed, hgone, hkept⟩ := freeSegs_chain (m.next + 1) h.chain
    (by rw [h.addrs]; exact List.nodup_range') (by omega)
  have hcount : m'.next - m₀.next = l.length := by omega
  refine ⟨m', ?_, hnext', ⟨by omega, ?_, ?_, ?_⟩, ?_⟩
  · rw [outErr, free_msg_eq, hfree]
    rfl
  · rw [hfreed, h.freed, h.addrs, hcount]
  · intro x hx
    rw [hkept x ?_, h.kept x hx]
    rw [h.addrs, List.mem_range'_1]
    omega
  · intro x hlo hhi
    refine hgone x ?_
    rw [h.addrs, List.mem_range'_1]
    omega
  · refine heap_ext ?_ ?_
    · rw [free_msg_next]
      exact hnext'
    · rw [free_msg_freed]
      exact hfreed

/-- The addresses of a chain with a last block. -/
theorem Building.last {l₀ : List (Nat × List UInt8)} (h : Building m₀ m (l₀ ++ [(a, v)])) :
    a + 1 = m.next ∧ m₀.next ≤ a ∧ (∀ x ∈ l₀, x.1 < a) ∧
      Chain m.node (some m₀.next) l₀ (some a) ∧ m.block a = some ⟨none, v⟩ := by
  have hnext := h.next
  have haddrs := h.addrs
  rw [List.map_append, List.length_append, List.length_singleton, List.range'_concat,
    Nat.one_mul] at haddrs
  rw [List.length_append, List.length_singleton] at hnext
  obtain ⟨hfirst, hlast⟩ := List.append_inj' haddrs rfl
  have ha : a = m₀.next + l₀.length := List.singleton_inj.mp hlast
  obtain ⟨hpath, hnode⟩ := Chain.concat_iff.mp h.chain
  refine ⟨by omega, by omega, ?_, hpath, node_eq_some.mp hnode⟩
  intro x hx
  have hmem : x.1 ∈ List.range' m₀.next l₀.length := hfirst ▸ List.mem_map_of_mem hx
  rw [List.mem_range'_1] at hmem
  omega

/-- The text is copied into the last block. -/
theorem Building.write {l₀ : List (Nat × List UInt8)} (h : Building m₀ m (l₀ ++ [(a, v)]))
    (text : List UInt8) :
    ∃ m', m.modify a (fun b => { b with text := text }) = some m' ∧ m'.next = m.next ∧
      Building m₀ m' (l₀ ++ [(a, text)]) := by
  obtain ⟨_, hle, hlt, hpath, hblock⟩ := h.last
  have haddrs := h.addrs
  have hnext := h.next
  refine ⟨_, modify_eq hblock _, rfl, ?_, ?_, ?_, h.freed, ?_⟩
  · refine Chain.concat_iff.mpr ⟨hpath.congr fun x hx => node_congr ?_, node_eq_some.mpr ?_⟩
    · exact Function.update_of_ne (by have := hlt x hx; omega) _ _
    · exact Function.update_self _ _ _
  · simpa using haddrs
  · simpa using hnext
  · intro x hx
    exact (Function.update_of_ne (by omega) _ _).trans (h.kept x hx)

/-- The first block is got. -/
theorem Building.first (m₀ : Memory) (alen : Nat) :
    ∃ m, (m₀.kmalloc alen).2.modify m₀.next (fun b => { b with next := none }) = some m ∧
      m.next = m₀.next + 1 ∧ Building m₀ m ([] ++ [(m₀.next, (m₀.fresh alen).text)]) := by
  have hblock : (m₀.kmalloc alen).2.block m₀.next = some (m₀.fresh alen) :=
    Function.update_self _ _ _
  refine ⟨_, modify_eq hblock _, rfl, ?_, rfl, rfl, rfl, ?_⟩
  · exact Chain.concat_iff.mpr ⟨.here, node_eq_some.mpr (Function.update_self _ _ _)⟩
  · intro x hx
    exact (Function.update_of_ne (by omega) _ _).trans (Function.update_of_ne (by omega) _ _)

/-- One more block is got and put at the end of the chain. -/
theorem Building.link {l₀ : List (Nat × List UInt8)} (h : Building m₀ m (l₀ ++ [(a, v)]))
    (alen : Nat) :
    ∃ m', (((m.kmalloc alen).2.modify a fun b => { b with next := some m.next }).bind fun m₁ =>
        m₁.modify m.next fun b => { b with next := none }) = some m' ∧
      m'.next = m.next + 1 ∧
      Building m₀ m' (l₀ ++ [(a, v)] ++ [(m.next, (m.fresh alen).text)]) := by
  obtain ⟨hend, hle, hlt, hpath, hblock⟩ := h.last
  have hpseg : (m.kmalloc alen).2.block a = some ⟨none, v⟩ := by
    rw [← hblock]
    exact Function.update_of_ne (by omega) _ _
  rw [modify_eq hpseg, Option.bind_some, modify_eq (b := m.fresh alen)
    ((Function.update_of_ne (by omega) _ _).trans (Function.update_self _ _ _))]
  have haddrs := h.addrs
  have hnext := h.next
  refine ⟨_, rfl, rfl, ?_, ?_, ?_, h.freed, ?_⟩
  · -- the old blocks, the one that now points on, the new one
    refine Chain.concat_iff.mpr ⟨Chain.concat_iff.mpr ⟨?_, ?_⟩, ?_⟩
    · refine hpath.congr fun x hx => node_congr ?_
      have hx := hlt x hx
      exact (Function.update_of_ne (by omega) _ _).trans <|
        (Function.update_of_ne (by omega) _ _).trans (Function.update_of_ne (by omega) _ _)
    · refine node_eq_some.mpr ?_
      exact (Function.update_of_ne (by omega) _ _).trans (Function.update_self _ _ _)
    · exact node_eq_some.mpr (Function.update_self _ _ _)
  · generalize l₀ ++ [(a, v)] = l at haddrs hnext
    rw [List.map_append, haddrs, List.length_append, List.length_singleton, List.range'_concat,
      Nat.one_mul, hnext]
    rfl
  · generalize l₀ ++ [(a, v)] = l at hnext
    rw [List.length_append, List.length_singleton, ← Nat.add_assoc, ← hnext]
    rfl
  · intro x hx
    exact (Function.update_of_ne (by omega) _ _).trans <|
      (Function.update_of_ne (by omega) _ _).trans <|
        (Function.update_of_ne (by omega) _ _).trans (h.kept x hx)

end RtaiDemos.Sysvmsg.Segments
