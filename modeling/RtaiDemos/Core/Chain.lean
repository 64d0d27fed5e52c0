import Mathlib.Data.List.Basic

/-!
# Chains of pointers

`node` is what is stored at an address: the pointer to the next node, which is
`none` for `NULL`, and a value. A chain is a path along the pointers with the
addresses and values it meets.
-/

namespace RtaiDemos

/-- The path from `p` to `q`. -/
inductive Chain {α β : Type} (node : α → Option (Option α × β)) :
    Option α → List (α × β) → Option α → Prop
  | here {p} : Chain node p [] p
  | next {a v n l q} : node a = some (n, v) → Chain node n l q → Chain node (some a) ((a, v) :: l) q

namespace Chain

variable {α β : Type} {node node' : α → Option (Option α × β)} {p q : Option α}
  {l : List (α × β)} {a : α} {v : β}

/-- A path along nodes that are the same in both. -/
theorem congr (h : Chain node p l q) (hsame : ∀ x ∈ l, node' x.1 = node x.1) :
    Chain node' p l q := by
  induction h with
  | here => exact .here
  | next hnode _ ih =>
      refine .next ?_ (ih fun x hx => hsame x (List.mem_cons_of_mem _ hx))
      rw [hsame _ List.mem_cons_self]
      exact hnode

/-- The last node of a path. -/
theorem concat_iff :
    Chain node p (l ++ [(a, v)]) q ↔ Chain node p l (some a) ∧ node a = some (q, v) := by
  constructor
  · intro h
    induction l generalizing p with
    | nil =>
        obtain _ | ⟨hnode, hrest⟩ := h
        cases hrest
        exact ⟨.here, hnode⟩
    | cons x l ih =>
        obtain _ | ⟨hnode, hrest⟩ := h
        obtain ⟨hpath, hlast⟩ := ih hrest
        exact ⟨.next hnode hpath, hlast⟩
  · rintro ⟨hpath, hlast⟩
    generalize hend : some a = r at hpath
    induction hpath with
    | here =>
        subst hend
        exact .next hlast .here
    | next hnode _ ih => exact .next hnode (ih hend)

end Chain

end RtaiDemos
