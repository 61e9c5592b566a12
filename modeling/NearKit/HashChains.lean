import Mathlib.Data.List.Basic

/-!
# Chains of hashes

A chain starts from the hash of its root, and each step hashes the last hash together with
the label of the step. Two chains that end alike are the same chain, unless different inputs
hash alike or a root is written like a step. Inputs are compared by a normal form.
-/
namespace NearKit

/-- How a chain is hashed. -/
structure HashChain (R I X Y : Type) where
  hash : X → Y
  root : R → X
  child : Y → I → X

namespace HashChain
variable {R I X Y Z N : Type} (c : HashChain R I X Y)

/-- The end of the chain, the label of the last step first. -/
def node (r : R) : List I → Y
  | [] => c.hash (c.root r)
  | i :: labels => c.hash (c.child (node r labels) i)

def last (r : R) : List I → X
  | [] => c.root r
  | i :: labels => c.child (c.node r labels) i

/-- What is hashed on the way, the last input first. -/
def inputs (r : R) : List I → List X
  | [] => [c.last r []]
  | i :: labels => c.last r (i :: labels) :: inputs r labels

theorem node_eq (r : R) (labels : List I) : c.node r labels = c.hash (c.last r labels) := by
  cases labels with
  | nil => rfl
  | cons i labels => rfl

theorem last_mem_inputs (r : R) (labels : List I) : c.last r labels ∈ c.inputs r labels := by
  cases labels with
  | nil => exact List.mem_cons_self
  | cons i labels => exact List.mem_cons_self

theorem foldl_eq_node (r : R) (path : List I) :
    path.foldl (fun y i => c.hash (c.child y i)) (c.hash (c.root r)) = c.node r path.reverse := by
  rw [List.foldl_eq_foldr_reverse]
  generalize path.reverse = labels
  induction labels with
  | nil => rfl
  | cons i labels ih =>
    rw [List.foldr_cons, ih]
    rfl

/-- The ends of the first steps of a chain are hashed on its way. -/
theorem last_mem_inputs_of_suffix {r : R} {labels labels' : List I} (h : labels <:+ labels') :
    c.last r labels ∈ c.inputs r labels' := by
  induction labels' with
  | nil =>
    rw [List.suffix_nil.mp h]
    exact c.last_mem_inputs r []
  | cons i labels' ih =>
    rcases List.suffix_cons_iff.mp h with rfl | h
    · exact c.last_mem_inputs r _
    · exact List.mem_cons_of_mem _ (ih h)

theorem head?_inputs (r : R) (labels : List I) :
    (c.inputs r labels).head? = some (c.last r labels) := by
  cases labels with
  | nil => rfl
  | cons i labels => rfl

/-- A step of the second chain is written like the root of the first. -/
def Clash (norm : X → N) (r r' : R) (labels' : List I) : Prop :=
  ∃ i labels, i :: labels <:+ labels' ∧ norm (c.root r) = norm (c.child (c.node r' labels) i)

/-- Why two chains end alike. -/
inductive Coincide (norm : X → N) (r : R) (labels : List I) (r' : R) (labels' : List I) : Prop where
  | same (root : r = r') (path : labels = labels')
  | collide (x x' : X) (left : x ∈ c.inputs r labels) (right : x' ∈ c.inputs r' labels')
    (differ : norm x ≠ norm x') (alike : c.hash x = c.hash x')
  | clashLeft (clash : c.Clash norm r r' labels')
  | clashRight (clash : c.Clash norm r' r labels)

variable {c} {view : Y → Z} {norm : X → N} {r r' : R} {labels labels' : List I}

theorem Clash.cons {i : I} (h : c.Clash norm r r' labels') : c.Clash norm r r' (i :: labels') := by
  obtain ⟨j, js, hsuffix, heq⟩ := h
  exact ⟨j, js, hsuffix.trans (List.suffix_cons _ _), heq⟩

theorem Coincide.cons {i : I} (h : c.Coincide norm r labels r' labels') :
    c.Coincide norm r (i :: labels) r' (i :: labels') := by
  cases h with
  | same root path => exact .same root (congrArg _ path)
  | collide x x' left right differ alike =>
    exact .collide x x' (List.mem_cons_of_mem _ left) (List.mem_cons_of_mem _ right) differ alike
  | clashLeft clash => exact .clashLeft clash.cons
  | clashRight clash => exact .clashRight clash.cons

/-- Chains with the same last input: two roots, or two steps from the same hash, or a root and
a step. -/
theorem Coincide.of_last (hroot : ∀ r r', norm (c.root r) = norm (c.root r') → r = r')
    (hchild : ∀ y i y' i', norm (c.child y i) = norm (c.child y' i') → y = y' ∧ i = i')
    (h : norm (c.last r labels) = norm (c.last r' labels')) :
    c.Coincide norm r labels r' labels' := by
  induction labels generalizing labels' with
  | nil =>
    cases labels' with
    | nil => exact .same (hroot _ _ h) rfl
    | cons i' labels' => exact .clashLeft ⟨i', labels', List.suffix_refl _, h⟩
  | cons i labels ih =>
    cases labels' with
    | nil => exact .clashRight ⟨i, labels, List.suffix_refl _, h.symm⟩
    | cons i' labels' =>
      obtain ⟨hnode, rfl⟩ := hchild _ _ _ _ h
      apply Coincide.cons
      by_cases hlast : norm (c.last r labels) = norm (c.last r' labels')
      · exact ih hlast
      · rw [node_eq, node_eq] at hnode
        exact .collide _ _ (c.last_mem_inputs r labels) (c.last_mem_inputs r' labels') hlast hnode

/-- Chains that end alike as far as `view` shows: it shows too little of their last hashes, or
there is a reason. -/
theorem coincide_of_view (hroot : ∀ r r', norm (c.root r) = norm (c.root r') → r = r')
    (hchild : ∀ y i y' i', norm (c.child y i) = norm (c.child y' i') → y = y' ∧ i = i')
    (h : view (c.node r labels) = view (c.node r' labels')) :
    (norm (c.last r labels) ≠ norm (c.last r' labels') ∧
        view (c.hash (c.last r labels)) = view (c.hash (c.last r' labels'))) ∨
      c.Coincide norm r labels r' labels' := by
  by_cases hlast : norm (c.last r labels) = norm (c.last r' labels')
  · exact .inr (.of_last hroot hchild hlast)
  · rw [node_eq, node_eq] at h
    exact .inl ⟨hlast, h⟩

end HashChain
end NearKit
