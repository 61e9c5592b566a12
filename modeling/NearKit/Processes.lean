import Mathlib.Logic.Function.Basic
import Mathlib.Data.Nat.Notation
import Mathlib.Tactic.Common

/-!
# Interleaved processes

An asynchronous computation is a tree of requests, each resumed with its answer. A pool
of them runs over a shared state: at any moment one of the waiting processes is
answered, as a handler allows in the current state. A monitor follows the requests of
one process; what a process keeps to by itself, it keeps to in every interleaving.
-/
namespace NearKit

inductive Process (Q : Type) (A : Q → Type) (α : Type) where
  | done (result : α)
  | ask (request : Q) (resume : A request → Process Q A α)

variable {Q : Type} {A : Q → Type} {α β : Type}

namespace Process

def map (f : α → β) : Process Q A α → Process Q A β
  | done a => done (f a)
  | ask q resume => ask q fun a => (resume a).map f

def bind (k : α → Process Q A β) : Process Q A α → Process Q A β
  | done a => k a
  | ask q resume => ask q fun a => (resume a).bind k

/-- Every request is carried out by a process of its own. One that ends without an answer
ends the whole with `abort`. -/
def expand {Q' : Type} {A' : Q' → Type} (impl : (q : Q) → Process Q' A' (Option (A q))) (abort : α) :
    Process Q A α → Process Q' A' α
  | done a => done a
  | ask q resume => (impl q).bind fun r =>
    r.elim (done abort) fun a => (resume a).expand impl abort

theorem map_map {γ : Type} (g : β → γ) (f : α → β) (p : Process Q A α) :
    (p.map f).map g = p.map fun a => g (f a) := by
  induction p with
  | done a => rfl
  | ask q resume ih => exact congrArg (ask q) (funext ih)

end Process

/-! ## Complete runs of one process -/

structure Exchange (Q : Type) (A : Q → Type) where
  request : Q
  answer : A request

/-- The process makes these exchanges, in order, and returns. The handler relates the
state before and after each of them. -/
inductive Completes {σ : Type} (H : σ → (q : Q) → A q → σ → Prop) :
    σ → Process Q A α → List (Exchange Q A) → σ → α → Prop where
  | done (s : σ) (r : α) : Completes H s (.done r) [] s r
  | ask {s s' s'' : σ} {q : Q} {a : A q} {resume : A q → Process Q A α}
      {tr : List (Exchange Q A)} {r : α} (step : H s q a s')
      (rest : Completes H s' (resume a) tr s'' r) :
      Completes H s (.ask q resume) (⟨q, a⟩ :: tr) s'' r

namespace Completes
variable {σ : Type} {H : σ → (q : Q) → A q → σ → Prop} {s s' : σ} {tr : List (Exchange Q A)} {r : α}

theorem done_inv {r' : α} (h : Completes H s (.done r') tr s' r) : tr = [] ∧ s' = s ∧ r = r' := by
  cases h
  exact ⟨rfl, rfl, rfl⟩

theorem done_result {r' : α} (h : Completes H s (.done r') tr s' r) : r = r' := h.done_inv.2.2

theorem ask_inv {q : Q} {resume : A q → Process Q A α} (h : Completes H s (.ask q resume) tr s' r) :
    ∃ a mid rest, tr = ⟨q, a⟩ :: rest ∧ H s q a mid ∧ Completes H mid (resume a) rest s' r := by
  cases h with
  | ask step rest => exact ⟨_, _, _, rfl, step, rest⟩

theorem forall_mem {P : Exchange Q A → Prop} (hH : ∀ s q a s', H s q a s' → P ⟨q, a⟩)
    {p : Process Q A α} (h : Completes H s p tr s' r) : ∀ x ∈ tr, P x := by
  induction h with
  | done s r => exact nofun
  | ask step rest ih => exact List.forall_mem_cons.mpr ⟨hH _ _ _ _ step, ih⟩

end Completes

/-- A mapped process makes the same exchanges. -/
theorem Completes.exists_of_map {σ : Type} {H : σ → (q : Q) → A q → σ → Prop} {f : α → β}
    {p : Process Q A α} {s s' : σ} {tr : List (Exchange Q A)} {r : β}
    (h : Completes H s (p.map f) tr s' r) : ∃ a, r = f a ∧ Completes H s p tr s' a := by
  induction p generalizing s tr with
  | done a =>
    obtain ⟨rfl, rfl, rfl⟩ := h.done_inv
    exact ⟨a, rfl, .done _ a⟩
  | ask q resume ih =>
    obtain ⟨answer, mid, rest, rfl, step, hrest⟩ := h.ask_inv
    obtain ⟨a, hr, ha⟩ := ih answer hrest
    exact ⟨a, hr, .ask step ha⟩

/-- A run of two processes, one after the other, is a run of each. -/
theorem Completes.exists_of_bind {σ : Type} {H : σ → (q : Q) → A q → σ → Prop}
    {k : α → Process Q A β} {p : Process Q A α} {s s' : σ} {tr : List (Exchange Q A)} {r : β}
    (h : Completes H s (p.bind k) tr s' r) : ∃ a mid before later, tr = before ++ later ∧
      Completes H s p before mid a ∧ Completes H mid (k a) later s' r := by
  induction p generalizing s tr with
  | done a => exact ⟨a, s, [], tr, rfl, .done s a, h⟩
  | ask q resume ih =>
    obtain ⟨answer, mid, rest, rfl, step, hrest⟩ := h.ask_inv
    obtain ⟨a, mid', before, later, rfl, hbefore, hlater⟩ := ih answer hrest
    exact ⟨a, mid', _, later, rfl, .ask step hbefore, hlater⟩

theorem Completes.bind {σ : Type} {H : σ → (q : Q) → A q → σ → Prop} {k : α → Process Q A β}
    {p : Process Q A α} {s mid s' : σ} {before later : List (Exchange Q A)} {a : α} {r : β}
    (h : Completes H s p before mid a) (hk : Completes H mid (k a) later s' r) :
    Completes H s (p.bind k) (before ++ later) s' r := by
  induction h with
  | done s a => exact hk
  | ask step rest ih => exact .ask step (ih hk)

theorem Completes.map {σ : Type} {H : σ → (q : Q) → A q → σ → Prop} {f : α → β}
    {p : Process Q A α} {s s' : σ} {tr : List (Exchange Q A)} {a : α}
    (h : Completes H s p tr s' a) : Completes H s (p.map f) tr s' (f a) := by
  induction h with
  | done s a => exact .done s (f a)
  | ask step rest ih => exact .ask step ih

/-- If every request can be answered, every process can be run to its end. -/
theorem Process.exists_completes {σ : Type} {H : σ → (q : Q) → A q → σ → Prop}
    (hH : ∀ s q, ∃ a s', H s q a s') (p : Process Q A α) (s : σ) :
    ∃ tr s' r, Completes H s p tr s' r := by
  induction p generalizing s with
  | done r => exact ⟨[], s, r, .done s r⟩
  | ask q resume ih =>
    obtain ⟨a, mid, step⟩ := hH s q
    obtain ⟨tr, s', r, rest⟩ := ih a mid
    exact ⟨_, s', r, .ask step rest⟩

/-- The exchanges and the result of a process whose requests are answered by a script, from
the `n`th request on. -/
def Process.play (script : ℕ → (q : Q) → A q) : ℕ → Process Q A α → List (Exchange Q A) × ℕ × α
  | n, done r => ([], n, r)
  | n, ask q resume =>
    let (tr, later) := (resume (script n q)).play script (n + 1)
    (⟨q, script n q⟩ :: tr, later)

/-- A script as a handler over the number of answered requests. -/
def Scripts (script : ℕ → (q : Q) → A q) (n : ℕ) (q : Q) (a : A q) (n' : ℕ) : Prop :=
  a = script n q ∧ n' = n + 1

theorem Process.completes_play (script : ℕ → (q : Q) → A q) (n : ℕ) (p : Process Q A α) :
    Completes (Scripts script) n p (p.play script n).1 (p.play script n).2.1 (p.play script n).2.2 := by
  induction p generalizing n with
  | done r => exact .done n r
  | ask q resume ih => exact .ask ⟨rfl, rfl⟩ (ih (script n q) (n + 1))

/-! ## Pools -/

/-- What happens in a pool: an answered request, with the shared state before it, or a
returned result. -/
inductive Occurrence (ι σ Q : Type) (A : Q → Type) (α : Type) where
  | asked (process : ι) (before : σ) (request : Q) (answer : A request)
  | returned (process : ι) (result : α)

variable {ι σ : Type} [DecidableEq ι]

/-- The histories of a pool, newest occurrence first, with the shared state and the
processes they lead to. A process that has returned is gone. -/
inductive Interleaving (H : ι → σ → (q : Q) → A q → σ → Prop) (start : ι → Process Q A α)
    (s₀ : σ) : List (Occurrence ι σ Q A α) → σ → (ι → Option (Process Q A α)) → Prop where
  | init : Interleaving H start s₀ [] s₀ fun i => some (start i)
  | asked {es s s' ps i q a resume} (run : Interleaving H start s₀ es s ps)
      (waiting : ps i = some (.ask q resume)) (step : H i s q a s') :
      Interleaving H start s₀ (.asked i s q a :: es) s' (Function.update ps i (some (resume a)))
  | returned {es s ps i r} (run : Interleaving H start s₀ es s ps)
      (finished : ps i = some (.done r)) :
      Interleaving H start s₀ (.returned i r :: es) s (Function.update ps i none)

theorem Interleaving.ask {H : ι → σ → (q : Q) → A q → σ → Prop} {start : ι → Process Q A α}
    {s₀ s : σ} {es : List (Occurrence ι σ Q A α)} {ps : ι → Option (Process Q A α)}
    (run : Interleaving H start s₀ es s ps) {i : ι} {p : Process Q A α} (hps : ps i = some p) {q : Q}
    {resume : A q → Process Q A α} (hp : p = .ask q resume) (a : A q) {t : σ}
    (step : H i s q a t) : ∃ ps', Interleaving H start s₀ (.asked i s q a :: es) t ps' ∧
      ps' i = some (resume a) ∧ ∀ j, j ≠ i → ps' j = ps j := by
  rw [hp] at hps
  exact ⟨_, .asked run hps step, Function.update_self .., fun j hj => Function.update_of_ne hj _ _⟩

/-- Every occurrence of a history is as `P` says, given what came before it. -/
def Along {ε : Type} (P : List ε → ε → Prop) : List ε → Prop
  | [] => True
  | e :: es => P es e ∧ Along P es

/-- What one process of the pool has been through, newest exchange first. -/
def exchangesOf (i : ι) : List (Occurrence ι σ Q A α) → List (Exchange Q A)
  | [] => []
  | .asked j _ q a :: es => if j = i then ⟨q, a⟩ :: exchangesOf i es else exchangesOf i es
  | .returned _ _ :: es => exchangesOf i es

section
variable {i j : ι} {es : List (Occurrence ι σ Q A α)} {s : σ} {q : Q} {a : A q}

theorem exchangesOf_asked_self :
    exchangesOf i (.asked i s q a :: es) = ⟨q, a⟩ :: exchangesOf i es :=
  if_pos rfl

theorem exchangesOf_asked_of_ne (h : j ≠ i) :
    exchangesOf i (.asked j s q a :: es) = exchangesOf i es :=
  if_neg h

theorem exists_asked_of_mem_exchangesOf {x : Exchange Q A} (h : x ∈ exchangesOf i es) :
    ∃ s, .asked i s x.request x.answer ∈ es := by
  induction es with
  | nil => cases h
  | cons e es ih =>
    cases e with
    | asked j s q a =>
      by_cases hj : j = i
      · subst hj
        rw [exchangesOf_asked_self] at h
        rcases List.mem_cons.mp h with rfl | h
        · exact ⟨s, List.mem_cons_self⟩
        · exact (ih h).imp fun _ => List.mem_cons_of_mem _
      · rw [exchangesOf_asked_of_ne hj] at h
        exact (ih h).imp fun _ => List.mem_cons_of_mem _
    | returned j r => exact (ih h).imp fun _ => List.mem_cons_of_mem _

end

/-! ## Monitors -/

/-- An automaton over the exchanges of one process. -/
structure Monitor (Q : Type) (A : Q → Type) (S : Type) where
  start : S
  /-- The requests the process may make in a monitor state. -/
  allows : S → Q → Prop
  next : S → (q : Q) → A q → S

variable {S : Type}

/-- Whatever it is answered, the process makes only allowed requests and returns as
`post` says. -/
def Process.Obeys (M : Monitor Q A S) (post : S → α → Prop) : S → Process Q A α → Prop
  | s, done r => post s r
  | s, ask q resume => M.allows s q ∧ ∀ a, (resume a).Obeys M post (M.next s q a)

theorem Process.Obeys.imp {M : Monitor Q A S} {post post' : S → α → Prop} {p : Process Q A α} {s : S}
    (h : p.Obeys M post s) (himp : ∀ s r, post s r → post' s r) : p.Obeys M post' s := by
  induction p generalizing s with
  | done r => exact himp s r h
  | ask q resume ih => exact ⟨h.1, fun a => ih a (h.2 a)⟩

theorem Process.Obeys.map {M : Monitor Q A S} {post : S → β → Prop} {f : α → β}
    {p : Process Q A α} {s : S} (h : p.Obeys M (fun s r => post s (f r)) s) :
    (p.map f).Obeys M post s := by
  induction p generalizing s with
  | done r => exact h
  | ask q resume ih => exact ⟨h.1, fun a => ih a (h.2 a)⟩

theorem Process.Obeys.bind {M : Monitor Q A S} {post : S → α → Prop} {post' : S → β → Prop}
    {p : Process Q A α} {k : α → Process Q A β} {s : S} (h : p.Obeys M post s)
    (hk : ∀ s r, post s r → (k r).Obeys M post' s) : (p.bind k).Obeys M post' s := by
  induction p generalizing s with
  | done r => exact hk s r h
  | ask q resume ih => exact ⟨h.1, fun a => ih a (h.2 a)⟩

/-- Monitors of two levels are related by `R`. If the process of each request keeps the
relation or ends the whole, an expanded process obeys the lower monitor because it obeys the
upper one. -/
theorem Process.Obeys.expand_or_abort {Q' : Type} {A' : Q' → Type} {S' : Type} {M : Monitor Q A S}
    {M' : Monitor Q' A' S'} {impl : (q : Q) → Process Q' A' (Option (A q))} {abort : α}
    {post : S → α → Prop} {post' : S' → α → Prop} (R : S → S' → Prop)
    (himpl : ∀ s s' q, R s s' → M.allows s q → (impl q).Obeys M'
      (fun s' r => (∀ a, r = some a → R (M.next s q a) s') ∧ (r = none → post' s' abort)) s')
    (hpost : ∀ s s' r, R s s' → post s r → post' s' r) {p : Process Q A α} {s : S} {s' : S'}
    (h : p.Obeys M post s) (hs : R s s') : (p.expand impl abort).Obeys M' post' s' := by
  induction p generalizing s s' with
  | done r => exact hpost s s' r hs h
  | ask q resume ih =>
    rw [Process.expand]
    apply (himpl s s' q hs h.1).bind
    intro s' r hr
    cases r with
    | none => exact hr.2 rfl
    | some a => exact ih a (h.2 a) (hr.1 a rfl)

theorem Process.Obeys.expand {Q' : Type} {A' : Q' → Type} {S' : Type} {M : Monitor Q A S}
    {M' : Monitor Q' A' S'} {impl : (q : Q) → Process Q' A' (Option (A q))} {abort : α}
    {post : S → α → Prop} {post' : S' → α → Prop} (R : S → S' → Prop)
    (himpl : ∀ s s' q, R s s' → M.allows s q →
      (impl q).Obeys M' (fun s' r => ∀ a, r = some a → R (M.next s q a) s') s')
    (hpost : ∀ s s' r, R s s' → post s r → post' s' r) (habort : ∀ s', post' s' abort)
    {p : Process Q A α} {s : S} {s' : S'} (h : p.Obeys M post s) (hs : R s s') :
    (p.expand impl abort).Obeys M' post' s' :=
  h.expand_or_abort R
    (fun s s' q hR hq => (himpl s s' q hR hq).imp fun s' _ hr => ⟨hr, fun _ => habort s'⟩) hpost hs

/-- What a monitor enforces, a monitor that follows it under `R` enforces too. -/
theorem Process.Obeys.simulate {S' : Type} {M : Monitor Q A S} {M' : Monitor Q A S'}
    {post : S → α → Prop} {post' : S' → α → Prop} (R : S → S' → Prop)
    (hstep : ∀ s s' q, R s s' → M.allows s q →
      M'.allows s' q ∧ ∀ a, R (M.next s q a) (M'.next s' q a))
    (hpost : ∀ s s' r, R s s' → post s r → post' s' r) {p : Process Q A α} {s : S} {s' : S'}
    (h : p.Obeys M post s) (hs : R s s') : p.Obeys M' post' s' := by
  induction p generalizing s s' with
  | done r => exact hpost s s' r hs h
  | ask q resume ih =>
    obtain ⟨hallows, hnext⟩ := hstep s s' q hs h.1
    exact ⟨hallows, fun a => ih a (h.2 a) (hnext a)⟩

def Monitor.prod {S' : Type} (M : Monitor Q A S) (M' : Monitor Q A S') : Monitor Q A (S × S') where
  start := (M.start, M'.start)
  allows s q := M.allows s.1 q ∧ M'.allows s.2 q
  next s q a := (M.next s.1 q a, M'.next s.2 q a)

theorem Process.Obeys.prod {S' : Type} {M : Monitor Q A S} {M' : Monitor Q A S'}
    {post : S → α → Prop} {post' : S' → α → Prop} {p : Process Q A α} {s : S} {s' : S'}
    (h : p.Obeys M post s) (h' : p.Obeys M' post' s') :
    p.Obeys (M.prod M') (fun s r => post s.1 r ∧ post' s.2 r) (s, s') := by
  induction p generalizing s s' with
  | done r => exact ⟨h, h'⟩
  | ask q resume ih => exact ⟨⟨h.1, h'.1⟩, fun a => ih a (h.2 a) (h'.2 a)⟩

/-- Looks at results only. -/
def Monitor.idle : Monitor Q A Unit where
  start := ()
  allows _ _ := True
  next _ _ _ := ()

namespace Monitor

/-- The monitor's state after the exchanges of a process. -/
def after (M : Monitor Q A S) : List (Exchange Q A) → S
  | [] => M.start
  | x :: xs => M.next (M.after xs) x.request x.answer

/-- Every request was allowed when it was made. -/
def Conforms (M : Monitor Q A S) : List (Exchange Q A) → Prop :=
  Along fun xs x => M.allows (M.after xs) x.request

/-- What the monitor guarantees of an occurrence. -/
def Guards (M : Monitor Q A S) (post : S → α → Prop) (i : ι) (es : List (Occurrence ι σ Q A α)) :
    Occurrence ι σ Q A α → Prop
  | .asked j _ q _ => j = i → M.allows (M.after (exchangesOf i es)) q
  | .returned j r => j = i → post (M.after (exchangesOf i es)) r

variable {M : Monitor Q A S} {post : S → α → Prop} {i : ι} {es : List (Occurrence ι σ Q A α)}

theorem conforms_of_guards (h : Along (M.Guards post i) es) : M.Conforms (exchangesOf i es) := by
  induction es with
  | nil => trivial
  | cons e es ih =>
    cases e with
    | asked j s q a =>
      by_cases hj : j = i
      · rw [hj, exchangesOf_asked_self]
        exact ⟨h.1 hj, ih h.2⟩
      · rw [exchangesOf_asked_of_ne hj]
        exact ih h.2
    | returned j r => exact ih h.2

theorem after_asked (M : Monitor Q A S) (j : ι) (s : σ) (q : Q) (a : A q) :
    (fun i => M.after (exchangesOf i (.asked j s q a :: es))) =
      Function.update (fun i => M.after (exchangesOf i es)) j
        (M.next (M.after (exchangesOf j es)) q a) := by
  funext i
  by_cases hi : i = j
  · subst hi
    rw [Function.update_self, exchangesOf_asked_self]
    rfl
  · rw [Function.update_of_ne hi, exchangesOf_asked_of_ne (Ne.symm hi)]

end Monitor

/-- A process that obeys a monitor by itself obeys it in every interleaving. -/
theorem Interleaving.guards {H : ι → σ → (q : Q) → A q → σ → Prop} {start : ι → Process Q A α}
    {s₀ s : σ} {es : List (Occurrence ι σ Q A α)} {ps : ι → Option (Process Q A α)}
    (run : Interleaving H start s₀ es s ps) {M : Monitor Q A S} {post : S → α → Prop} {i : ι}
    (hi : (start i).Obeys M post M.start) :
    (∀ p, ps i = some p → p.Obeys M post (M.after (exchangesOf i es))) ∧
      Along (M.Guards post i) es := by
  induction run with
  | init =>
    refine ⟨?_, trivial⟩
    intro p hp
    cases hp
    exact hi
  | @asked es s s' ps j q a resume run waiting step ih =>
    obtain ⟨hps, hes⟩ := ih
    by_cases hj : j = i
    · subst hj
      have hask := hps _ waiting
      refine ⟨?_, fun _ => hask.1, hes⟩
      intro p hp
      rw [Function.update_self] at hp
      cases hp
      rw [exchangesOf_asked_self]
      exact hask.2 a
    · refine ⟨?_, fun h => absurd h hj, hes⟩
      intro p hp
      rw [Function.update_of_ne (Ne.symm hj)] at hp
      rw [exchangesOf_asked_of_ne hj]
      exact hps p hp
  | @returned es s ps j r run finished ih =>
    obtain ⟨hps, hes⟩ := ih
    by_cases hj : j = i
    · subst hj
      refine ⟨?_, fun _ => hps _ finished, hes⟩
      intro p hp
      rw [Function.update_self] at hp
      cases hp
    · refine ⟨?_, fun h => absurd h hj, hes⟩
      intro p hp
      rw [Function.update_of_ne (Ne.symm hj)] at hp
      exact hps p hp

/-- A complete run ends as the monitor guarantees. -/
theorem Completes.exists_post {H : σ → (q : Q) → A q → σ → Prop} {s s' : σ} {p : Process Q A α}
    {tr : List (Exchange Q A)} {r : α} (h : Completes H s p tr s' r) {M : Monitor Q A S}
    {post : S → α → Prop} {m : S} (hp : p.Obeys M post m) : ∃ m', post m' r := by
  induction h generalizing m with
  | done s r => exact ⟨m, hp⟩
  | ask step rest ih => exact ih (hp.2 _)

/-- The monitor's state after a run from `m`, oldest exchange first. -/
def Monitor.run (M : Monitor Q A S) : S → List (Exchange Q A) → S
  | m, [] => m
  | m, x :: tr => M.run (M.next m x.request x.answer) tr

/-- Every request of a run was allowed when it was made. -/
def Monitor.Accepts (M : Monitor Q A S) : S → List (Exchange Q A) → Prop
  | _, [] => True
  | m, x :: tr => M.allows m x.request ∧ M.Accepts (M.next m x.request x.answer) tr

theorem Monitor.accepts_prod {S' : Type} {M : Monitor Q A S} {M' : Monitor Q A S'} {m : S} {m' : S'}
    {tr : List (Exchange Q A)} (h : (M.prod M').Accepts (m, m') tr) :
    M.Accepts m tr ∧ M'.Accepts m' tr ∧ (M.prod M').run (m, m') tr = (M.run m tr, M'.run m' tr) := by
  induction tr generalizing m m' with
  | nil => exact ⟨trivial, trivial, rfl⟩
  | cons x tr ih =>
    obtain ⟨haccepts, haccepts', hrun⟩ := ih h.2
    exact ⟨⟨h.1.1, haccepts⟩, ⟨h.1.2, haccepts'⟩, hrun⟩

theorem Completes.accepts {H : σ → (q : Q) → A q → σ → Prop} {s s' : σ} {p : Process Q A α}
    {tr : List (Exchange Q A)} {r : α} (h : Completes H s p tr s' r) {M : Monitor Q A S}
    {post : S → α → Prop} {m : S} (hp : p.Obeys M post m) : M.Accepts m tr ∧ post (M.run m tr) r := by
  induction h generalizing m with
  | done s r => exact ⟨trivial, hp⟩
  | ask step rest ih =>
    obtain ⟨haccepts, hpost⟩ := ih (hp.2 _)
    exact ⟨⟨hp.1, haccepts⟩, hpost⟩

/-! ## Recorded exchanges -/

/-- The monitor whose state is what the process has been through, newest exchange first. -/
def Monitor.recording (allows : List (Exchange Q A) → Q → Prop) :
    Monitor Q A (List (Exchange Q A)) where
  start := []
  allows := allows
  next xs q a := ⟨q, a⟩ :: xs

@[simp] theorem Monitor.recording_after (allows : List (Exchange Q A) → Q → Prop)
    (xs : List (Exchange Q A)) : (Monitor.recording allows).after xs = xs := by
  induction xs with
  | nil => rfl
  | cons x xs ih => exact congrArg (x :: ·) ih

/-- A recording only grows, and so a process that obeys it keeps what it started with. -/
theorem Process.Obeys.recording_imp {allows allows' : List (Exchange Q A) → Q → Prop}
    {post post' : List (Exchange Q A) → α → Prop} {p : Process Q A α} {xs : List (Exchange Q A)}
    (h : p.Obeys (.recording allows) post xs)
    (hallows : ∀ ys q, xs ⊆ ys → allows ys q → allows' ys q)
    (hpost : ∀ ys r, xs ⊆ ys → post ys r → post' ys r) :
    p.Obeys (.recording allows') post' xs := by
  refine h.simulate (fun ys ys' => ys = ys' ∧ xs ⊆ ys) ?_ ?_
    ⟨rfl, List.Subset.refl xs⟩
  · rintro ys _ q ⟨rfl, hsub⟩ hq
    exact ⟨hallows ys q hsub hq, fun a => ⟨rfl, List.subset_cons_of_subset _ hsub⟩⟩
  · rintro ys _ r ⟨rfl, hsub⟩ hr
    exact hpost ys r hsub hr

theorem Along.exists_suffix {ε : Type} {P : List ε → ε → Prop} {es : List ε} (h : Along P es) {e : ε}
    (he : e ∈ es) : ∃ es', es' <:+ es ∧ P es' e := by
  induction es with
  | nil => cases he
  | cons e' es ih =>
    rcases List.mem_cons.mp he with rfl | he
    · exact ⟨es, List.suffix_cons _ _, h.1⟩
    · obtain ⟨es', hes', hP⟩ := ih h.2 he
      exact ⟨es', hes'.trans (List.suffix_cons _ _), hP⟩

theorem exchangesOf_subset {i : ι} {es es' : List (Occurrence ι σ Q A α)} (h : es' <:+ es) :
    exchangesOf i es' ⊆ exchangesOf i es := by
  induction es with
  | nil =>
    rw [List.suffix_nil.mp h]
    exact List.Subset.refl _
  | cons e es ih =>
    rcases List.suffix_cons_iff.mp h with rfl | h
    · exact List.Subset.refl _
    · refine List.Subset.trans (ih h) ?_
      cases e with
      | asked j s q a =>
        by_cases hj : j = i
        · rw [hj, exchangesOf_asked_self]
          exact List.subset_cons_self _ _
        · rw [exchangesOf_asked_of_ne hj]
          exact List.Subset.refl _
      | returned j r => exact List.Subset.refl _

namespace Interleaving
variable {H : ι → σ → (q : Q) → A q → σ → Prop} {start : ι → Process Q A α} {s₀ s : σ}
variable {es : List (Occurrence ι σ Q A α)} {ps : ι → Option (Process Q A α)}

/-- Every answer of a history was one that the handler allowed. -/
theorem exists_step (run : Interleaving H start s₀ es s ps) {i : ι} {t : σ} {q : Q} {a : A q}
    (h : .asked i t q a ∈ es) : ∃ t', H i t q a t' := by
  induction run with
  | init => cases h
  | asked run waiting step ih =>
    rcases List.mem_cons.mp h with heq | h
    · cases heq
      exact ⟨_, step⟩
    · exact ih h
  | returned run finished ih =>
    rcases List.mem_cons.mp h with heq | h
    · cases heq
    · exact ih h

/-- The pool has been through every earlier part of its history. -/
theorem exists_earlier {later earlier : List (Occurrence ι σ Q A α)}
    (run : Interleaving H start s₀ (later ++ earlier) s ps) :
    ∃ s' ps', Interleaving H start s₀ earlier s' ps' := by
  induction later generalizing s ps with
  | nil => exact ⟨s, ps, run⟩
  | cons e later ih =>
    cases run with
    | asked run waiting step => exact ih run
    | returned run finished => exact ih run

theorem asked_inv {i : ι} {t : σ} {q : Q} {a : A q}
    (run : Interleaving H start s₀ (.asked i t q a :: es) s ps) :
    H i t q a s ∧ ∃ ps', Interleaving H start s₀ es t ps' := by
  cases run with
  | asked run waiting step => exact ⟨step, _, run⟩

/-- What a recording monitor says of a process holds, in every interleaving, of exchanges
that the process has been through. -/
theorem recorded (run : Interleaving H start s₀ es s ps) {i : ι}
    {allows : List (Exchange Q A) → Q → Prop} {post : List (Exchange Q A) → α → Prop}
    (hi : (start i).Obeys (.recording allows) post []) :
    (∀ t q a, .asked i t q a ∈ es → ∃ xs, xs ⊆ exchangesOf i es ∧ allows xs q) ∧
    (∀ r, .returned i r ∈ es → ∃ xs, xs ⊆ exchangesOf i es ∧ post xs r) := by
  obtain ⟨-, hes⟩ := run.guards (M := .recording allows) hi
  constructor
  · intro t q a h
    obtain ⟨es', hsuffix, hP⟩ := hes.exists_suffix h
    have hallows := hP rfl
    rw [Monitor.recording_after] at hallows
    exact ⟨_, exchangesOf_subset hsuffix, hallows⟩
  · intro r h
    obtain ⟨es', hsuffix, hP⟩ := hes.exists_suffix h
    have hpost := hP rfl
    rw [Monitor.recording_after] at hpost
    exact ⟨_, exchangesOf_subset hsuffix, hpost⟩

/-! ## Invariants of a pool -/

/-- What the shared state owes to each process, by how far the process is. A step of a process
keeps its own relation by what its monitor allows, and those of all others. -/
structure Invariant (H : ι → σ → (q : Q) → A q → σ → Prop) (M : ι → Monitor Q A S)
    (R : ι → σ → S → Prop) : Prop where
  own : ∀ {i s q a s' m}, R i s m → (M i).allows m q → H i s q a s' → R i s' ((M i).next m q a)
  others : ∀ {i j s q a s' m m'}, j ≠ i → R i s m → R j s m' → (M j).allows m' q → H j s q a s' →
    R i s' m

variable {M : ι → Monitor Q A S} {post : ι → S → α → Prop} {R : ι → σ → S → Prop}

theorem invariant (run : Interleaving H start s₀ es s ps) (hR : Invariant H M R)
    (hobeys : ∀ i, (start i).Obeys (M i) (post i) (M i).start) (h₀ : ∀ i, R i s₀ (M i).start) (i : ι) :
    R i s ((M i).after (exchangesOf i es)) := by
  induction run generalizing i with
  | init => exact h₀ i
  | @asked es s s' ps j q a resume run waiting step ih =>
    have hallows := ((run.guards (hobeys j)).1 _ waiting).1
    by_cases hj : j = i
    · subst hj
      rw [exchangesOf_asked_self]
      exact hR.own (ih j) hallows step
    · rw [exchangesOf_asked_of_ne hj]
      exact hR.others hj (ih i) (ih j) hallows step
  | returned run finished ih => exact ih i

/-- Every request of a history was made when the invariant held of its process. -/
theorem invariant_asked (run : Interleaving H start s₀ es s ps) (hR : Invariant H M R)
    (hobeys : ∀ i, (start i).Obeys (M i) (post i) (M i).start) (h₀ : ∀ i, R i s₀ (M i).start) {i : ι}
    {t : σ} {q : Q} {a : A q} (h : .asked i t q a ∈ es) :
    ∃ m t', R i t m ∧ (M i).allows m q ∧ H i t q a t' := by
  obtain ⟨later, earlier, rfl⟩ := List.append_of_mem h
  obtain ⟨s', ps', run'⟩ := run.exists_earlier
  obtain ⟨step, ps'', run''⟩ := run'.asked_inv
  obtain ⟨hallows, -⟩ := (run'.guards (hobeys i)).2
  exact ⟨_, _, run''.invariant hR hobeys h₀ i, hallows rfl, step⟩

end Interleaving
end NearKit
