import NearKit.Processes
import Mathlib.Data.Option.Defs

/-!
# Pools in lockstep

Two pools are scheduled alike, and their environments answer alike. Nothing is assumed of
what the processes ask: if they keep to a correspondence, they make corresponding requests
in both pools, and every run of the one pool has a counterpart in the other.
-/
namespace NearKit

variable {Q : Type} {A : Q → Type} {S α β ι σ : Type}

/-! ## Corresponding processes -/

/-- What two runs of a process have in common. The state follows the exchanges of the first
run, each with the moment at which the pool makes it. -/
structure Correspondence (Q : Type) (A : Q → Type) (S : Type) where
  start : S
  requests : S → Q → Q → Prop
  answers : ℕ → (q q' : Q) → A q → A q' → Prop
  next : ℕ → S → (q : Q) → A q → S

variable {C : Correspondence Q A S}

/-- As long as their answers correspond, so do the requests of the two processes, and they
return together. -/
def Process.Corresponds (C : Correspondence Q A S) : S → Process Q A α → Process Q A β → Prop
  | _, done _, done _ => True
  | s, ask q resume, ask q' resume' => C.requests s q q' ∧
    ∀ n a a', C.answers n q q' a a' → (resume a).Corresponds C (C.next n s q a) (resume' a')
  | _, _, _ => False

theorem Process.Corresponds.map {γ δ : Type} {f : α → γ} {g : β → δ} {p : Process Q A α}
    {p' : Process Q A β} {s : S} (h : p.Corresponds C s p') : (p.map f).Corresponds C s (p'.map g) := by
  induction p generalizing p' s with
  | done r =>
    cases p' with
    | done r' => trivial
    | ask q' resume' => exact h
  | ask q resume ih =>
    cases p' with
    | done r' => exact h
    | ask q' resume' => exact ⟨h.1, fun n a a' ha => ih a (h.2 n a a' ha)⟩

private theorem Process.Corresponds.ask_inv {s : S} {q : Q} {resume : A q → Process Q A α}
    {p' : Process Q A β} (h : (Process.ask q resume).Corresponds C s p') :
    ∃ q' resume', p' = .ask q' resume' ∧
      C.requests s q q' ∧ ∀ n a a', C.answers n q q' a a' →
        (resume a).Corresponds C (C.next n s q a) (resume' a') := by
  cases p' with
  | done r' => exact False.elim h
  | ask q' resume' => exact ⟨q', resume', rfl, h⟩

private theorem Process.Corresponds.done_inv {s : S} {r : α} {p' : Process Q A β}
    (h : (Process.done r : Process Q A α).Corresponds C s p') : ∃ r', p' = .done r' := by
  cases p' with
  | done r' => exact ⟨r', rfl⟩
  | ask q' resume' => exact False.elim h

/-! ## Corresponding histories -/

def Occurrence.process : Occurrence ι σ Q A α → ι
  | asked i _ _ _ => i
  | returned i _ => i

/-- The answers of two occurrences are as `E` says. -/
def Occurrence.Alike (E : (q q' : Q) → A q → A q' → Prop) :
    Occurrence ι σ Q A α → Occurrence ι σ Q A α → Prop
  | asked _ _ q a, asked _ _ q' a' => E q q' a a'
  | _, _ => True

/-- The same processes are served in both histories, and the environment answers as `E` says. -/
def Alike (E : ℕ → (q q' : Q) → A q → A q' → Prop) :
    List (Occurrence ι σ Q A α) → List (Occurrence ι σ Q A α) → Prop
  | [], [] => True
  | e :: es, e' :: es' => (e.process = e'.process ∧ e.Alike (E es.length) e') ∧ Alike E es es'
  | _, _ => False

variable [DecidableEq ι]

namespace Correspondence

/-- The state of a process after the history of the first pool. -/
def after (C : Correspondence Q A S) (i : ι) : List (Occurrence ι σ Q A α) → S
  | [] => C.start
  | .asked j _ q a :: es => if j = i then C.next es.length (C.after i es) q a else C.after i es
  | .returned _ _ :: es => C.after i es

/-- Two histories in which the same processes make corresponding exchanges and return. -/
def InStep (C : Correspondence Q A S) :
    List (Occurrence ι σ Q A α) → List (Occurrence ι σ Q A α) → Prop
  | [], [] => True
  | .asked i _ q a :: es, .asked i' _ q' a' :: es' =>
    (i = i' ∧ C.requests (C.after i es) q q' ∧ C.answers es.length q q' a a') ∧ C.InStep es es'
  | .returned i _ :: es, .returned i' _ :: es' => i = i' ∧ C.InStep es es'
  | _, _ => False

/-- One step in both pools keeps the states related, so far as the first run is as `P` says. In
the second pool it can be made. -/
structure Keeps (C : Correspondence Q A S) (H : ι → σ → (q : Q) → A q → σ → Prop)
    (E : ℕ → (q q' : Q) → A q → A q' → Prop)
    (P : List (Occurrence ι σ Q A α) → Occurrence ι σ Q A α → Prop) (R : σ → σ → Prop) : Prop where
  step : ∀ {es i s s' t t' q q'} {a : A q} {a' : A q'}, P es (.asked i s q a) → R s s' →
    C.requests (C.after i es) q q' → E es.length q q' a a' → H i s q a t → H i s' q' a' t' →
    C.answers es.length q q' a a' ∧ R t t'
  exists_answer : ∀ {i n x s s' t q q'} {a : A q}, R s s' → C.requests x q q' → H i s q a t →
    ∃ a' t', E n q q' a a' ∧ H i s' q' a' t'

end Correspondence

private theorem exists_of_rel_some {r : α → β → Prop} {a : α} {b : Option β}
    (h : Option.Rel r (some a) b) : ∃ b', b = some b' ∧ r a b' := by
  cases h with
  | some h => exact ⟨_, rfl, h⟩

private theorem rel_update {r r' : ι → α → β → Prop} {ps : ι → Option α} {ps' : ι → Option β}
    {i : ι} {p : Option α} {p' : Option β} (hp : Option.Rel (r' i) p p')
    (hr : ∀ j, j ≠ i → r' j = r j)
    (hps : ∀ j, Option.Rel (r j) (ps j) (ps' j)) (j : ι) :
    Option.Rel (r' j) (Function.update ps i p j) (Function.update ps' i p' j) := by
  by_cases hj : j = i
  · subst hj
    rw [Function.update_self, Function.update_self]
    exact hp
  · rw [Function.update_of_ne hj, Function.update_of_ne hj, hr j hj]
    exact hps j

namespace Correspondence
variable {es : List (Occurrence ι σ Q A α)} {s : σ} {i j : ι} {q : Q} {a : A q}

private theorem after_asked_self :
    C.after i (.asked i s q a :: es) = C.next es.length (C.after i es) q a :=
  if_pos rfl

private theorem after_asked_of_ne (h : j ≠ i) : C.after i (.asked j s q a :: es) = C.after i es :=
  if_neg h

end Correspondence

namespace Interleaving
variable {H : ι → σ → (q : Q) → A q → σ → Prop} {start start' : ι → Process Q A α}
variable {E : ℕ → (q q' : Q) → A q → A q' → Prop} {R : σ → σ → Prop}
variable {P : List (Occurrence ι σ Q A α) → Occurrence ι σ Q A α → Prop}
variable {s₀ s₀' s : σ} {es : List (Occurrence ι σ Q A α)} {ps : ι → Option (Process Q A α)}

/-- Two runs with the same schedule and like environments are in step. -/
theorem inStep (run : Interleaving H start s₀ es s ps) (hC : C.Keeps H E P R)
    (hstart : ∀ i, (start i).Corresponds C C.start (start' i)) (h₀ : R s₀ s₀') (hP : Along P es)
    {es' : List (Occurrence ι σ Q A α)} {s' : σ} {ps' : ι → Option (Process Q A α)}
    (run' : Interleaving H start' s₀' es' s' ps') (halike : Alike E es es') :
    R s s' ∧ C.InStep es es' ∧
      ∀ i, Option.Rel (fun p p' => p.Corresponds C (C.after i es) p') (ps i) (ps' i) := by
  induction run generalizing es' s' ps' with
  | init =>
    cases es' with
    | nil =>
      cases run'
      exact ⟨h₀, trivial, fun i => .some (hstart i)⟩
    | cons e' es' => exact False.elim halike
  | @asked es s t ps i q a resume run waiting step ih =>
    cases es' with
    | nil => exact False.elim halike
    | cons e' es' =>
      obtain ⟨⟨hprocess, hanswer⟩, halike⟩ := halike
      cases run' with
      | @asked es' s' t' ps' i' q' a' resume' run' waiting' step' =>
        cases (show i = i' from hprocess)
        obtain ⟨hR, hstep, hps⟩ := ih hP.2 run' halike
        have hp := hps i
        rw [waiting, waiting', Option.rel_some_some] at hp
        obtain ⟨hanswers, hR'⟩ := hC.step hP.1 hR hp.1 hanswer step step'
        have hnext := hp.2 es.length a a' hanswers
        rw [← Correspondence.after_asked_self (s := s)] at hnext
        refine ⟨hR', ⟨⟨rfl, hp.1, hanswers⟩, hstep⟩, rel_update (.some hnext) ?_ hps⟩
        intro j hj
        rw [Correspondence.after_asked_of_ne (Ne.symm hj)]
      | @returned es' s' ps' i' r' run' finished' =>
        cases (show i = i' from hprocess)
        have hp := (ih hP.2 run' halike).2.2 i
        rw [waiting, finished', Option.rel_some_some] at hp
        exact False.elim hp
  | @returned es s ps i r run finished ih =>
    cases es' with
    | nil => exact False.elim halike
    | cons e' es' =>
      obtain ⟨⟨hprocess, -⟩, halike⟩ := halike
      cases run' with
      | @asked es' s' t' ps' i' q' a' resume' run' waiting' step' =>
        cases (show i = i' from hprocess)
        have hp := (ih hP.2 run' halike).2.2 i
        rw [finished, waiting', Option.rel_some_some] at hp
        exact False.elim hp
      | @returned es' s' ps' i' r' run' finished' =>
        cases (show i = i' from hprocess)
        obtain ⟨hR, hstep, hps⟩ := ih hP.2 run' halike
        exact ⟨hR, ⟨rfl, hstep⟩, rel_update .none (fun _ _ => rfl) hps⟩

/-- Every run has a counterpart with the same schedule and a like environment. -/
theorem exists_alike (run : Interleaving H start s₀ es s ps) (hC : C.Keeps H E P R)
    (hstart : ∀ i, (start i).Corresponds C C.start (start' i)) (h₀ : R s₀ s₀') (hP : Along P es) :
    ∃ es' s' ps', Interleaving H start' s₀' es' s' ps' ∧ Alike E es es' := by
  induction run with
  | init => exact ⟨[], s₀', _, .init, trivial⟩
  | @asked es s t ps i q a resume run waiting step ih =>
    obtain ⟨es', s', ps', run', halike⟩ := ih hP.2
    obtain ⟨hR, -, hps⟩ := run.inStep hC hstart h₀ hP.2 run' halike
    have hp := hps i
    rw [waiting] at hp
    obtain ⟨p', hwaiting', hp⟩ := exists_of_rel_some hp
    obtain ⟨q', resume', rfl, hrequests, -⟩ := hp.ask_inv
    obtain ⟨a', t', hE, step'⟩ := hC.exists_answer (n := es.length) hR hrequests step
    exact ⟨_, t', _, .asked run' hwaiting' step', ⟨rfl, hE⟩, halike⟩
  | @returned es s ps i r run finished ih =>
    obtain ⟨es', s', ps', run', halike⟩ := ih hP.2
    obtain ⟨-, -, hps⟩ := run.inStep hC hstart h₀ hP.2 run' halike
    have hp := hps i
    rw [finished] at hp
    obtain ⟨p', hfinished', hp⟩ := exists_of_rel_some hp
    obtain ⟨r', rfl⟩ := hp.done_inv
    exact ⟨_, s', _, .returned run' hfinished', ⟨rfl, trivial⟩, halike⟩

end Interleaving
end NearKit
