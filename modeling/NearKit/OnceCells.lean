import NearKit.Processes

/-!
# Cells that are set once

Values that many processes ask for are fetched by the first that comes, while the others
wait. A fetch that fails leaves the cell empty for the next. Whatever the order of the
requests, a value is fetched with success at most once, and all see this value.
-/
namespace NearKit

inductive CellState (ι α : Type) where
  | empty
  /-- The process initialises the cell. -/
  | held (process : ι)
  | full (value : α)

/-- What a process asks of the cells, and its other requests. -/
inductive CellRequest (κ : Type) (V : κ → Type) (Q : Type) where
  /-- Waits until the cell is full or free. -/
  | enter (c : κ)
  | fetch (c : κ)
  | set (c : κ) (value : V c)
  | release (c : κ)
  | call (request : Q)

variable {ι κ Q : Type} {V : κ → Type} {A : Q → Type} {F : κ → Type} {ε α : Type}

/-- An `enter` is answered with the value, or with the permit to initialise. -/
@[reducible] def CellAnswer (V : κ → Type) (A : Q → Type) (F : κ → Type) : CellRequest κ V Q → Type
  | .enter c => Option (V c)
  | .fetch c => F c
  | .set .. => Unit
  | .release _ => Unit
  | .call q => A q

/-- The value of the cell, by `parse` of what a fetch is answered. -/
def getOrTryInit (parse : (c : κ) → F c → Except ε (V c)) (c : κ) :
    Process (CellRequest κ V Q) (CellAnswer V A F) (Except ε (V c)) :=
  .ask (.enter c) fun
  | some value => .done (.ok value)
  | none =>
    .ask (.fetch c) fun answer =>
    match parse c answer with
    | .ok value => .ask (.set c value) fun _ => .done (.ok value)
    | .error e => .ask (.release c) fun _ => .done (.error e)

/-! ## The cells -/

section
variable [DecidableEq κ]

/-- What each request does to the cells. -/
def CellStep (i : ι) (cells : (c : κ) → CellState ι (V c)) :
    (q : CellRequest κ V Q) → CellAnswer V A F q → ((c : κ) → CellState ι (V c)) → Prop
  | .enter c, some value, cells' => cells c = .full value ∧ cells' = cells
  | .enter c, none, cells' => cells c = .empty ∧ cells' = Function.update cells c (.held i)
  | .set c value, _, cells' => cells c = .held i → cells' = Function.update cells c (.full value)
  | .release c, _, cells' => cells c = .held i → cells' = Function.update cells c .empty
  | .fetch _, _, cells' => cells' = cells
  | .call _, _, cells' => cells' = cells

/-- How far a process is with the cell that it initialises. -/
inductive CellPhase (V : κ → Type) where
  | idle
  | held (c : κ)
  | fetched (c : κ) (value : V c)
  | failed (c : κ)

namespace CellPhase

def cell : CellPhase V → Option κ
  | idle => none
  | held c => some c
  | fetched c _ => some c
  | failed c => some c

/-- A process fetches only what it may initialise, and then sets or releases it. -/
inductive Allows : CellPhase V → CellRequest κ V Q → Prop where
  | enter (c : κ) : Allows .idle (.enter c)
  | call (q : Q) : Allows .idle (.call q)
  | fetch (c : κ) : Allows (.held c) (.fetch c)
  | set (c : κ) (value : V c) : Allows (.fetched c value) (.set c value)
  | release (c : κ) : Allows (.failed c) (.release c)

def next (parse : (c : κ) → F c → Except ε (V c)) (phase : CellPhase V) :
    (q : CellRequest κ V Q) → CellAnswer V A F q → CellPhase V
  | .enter _, some _ => .idle
  | .enter c, none => .held c
  | .fetch c, answer =>
    match parse c answer with
    | .ok value => .fetched c value
    | .error _ => .failed c
  | .set .., _ => .idle
  | .release _, _ => .idle
  | .call _, _ => phase

end CellPhase

/-- Follows the use of the cells. -/
def cellMonitor (A : Q → Type) (parse : (c : κ) → F c → Except ε (V c)) :
    Monitor (CellRequest κ V Q) (CellAnswer V A F) (CellPhase V) where
  start := .idle
  allows := CellPhase.Allows
  next := CellPhase.next parse

omit [DecidableEq κ] in
theorem getOrTryInit_obeys (parse : (c : κ) → F c → Except ε (V c)) (c : κ) :
    (getOrTryInit (A := A) (Q := Q) parse c).Obeys (cellMonitor A parse) (fun phase _ => phase = .idle)
      .idle := by
  refine ⟨.enter c, fun entered => ?_⟩
  cases entered with
  | some value => rfl
  | none =>
    refine ⟨.fetch c, fun answer => ?_⟩
    simp only [cellMonitor, CellPhase.next]
    cases parse c answer with
    | error e => exact ⟨.release c, fun _ => rfl⟩
    | ok value => exact ⟨.set c value, fun _ => rfl⟩

/-! ## One step -/

variable {i j : ι} {cells cells' : (c : κ) → CellState ι (V c)} {phase phase' : CellPhase V}
variable {parse : (c : κ) → F c → Except ε (V c)} {q : CellRequest κ V Q} {a : CellAnswer V A F q}

omit [DecidableEq κ] in
private theorem CellPhase.cell_next_fetch (c : κ) (answer : F c) :
    (phase.next (A := A) (Q := Q) parse (.fetch c) answer).cell = some c := by
  simp only [next]
  cases parse c answer with
  | error e => rfl
  | ok value => rfl

/-- The process holds the cell that its phase says, and no other. -/
def Holds (i : ι) (cells : (c : κ) → CellState ι (V c)) (phase : CellPhase V) : Prop :=
  ∀ c, cells c = .held i ↔ phase.cell = some c

omit [DecidableEq κ] in
theorem Holds.held {c : κ} (h : Holds i cells phase) (hphase : phase.cell = some c) :
    cells c = .held i :=
  (h c).mpr hphase

private theorem Holds.update_held {c : κ} (h : Holds i cells .idle) :
    Holds i (Function.update cells c (.held i)) (.held c) := by
  intro c'
  by_cases hc : c' = c
  · subst hc
    rw [Function.update_self]
    exact iff_of_true rfl rfl
  · rw [Function.update_of_ne hc]
    exact iff_of_false (fun hheld => nomatch (h c').mp hheld) (fun hsome => hc (Option.some.inj hsome).symm)

theorem Holds.update_idle {c : κ} {state : CellState ι (V c)} (h : Holds i cells phase)
    (hphase : phase.cell = some c) (hstate : state ≠ .held i) :
    Holds i (Function.update cells c state) .idle := by
  intro c'
  refine iff_of_false ?_ nofun
  by_cases hc : c' = c
  · subst hc
    rw [Function.update_self]
    exact hstate
  · rw [Function.update_of_ne hc, h c', hphase]
    exact fun hsome => hc (Option.some.inj hsome).symm

private theorem Holds.update_other {c : κ} {state : CellState ι (V c)} (h : Holds i cells phase)
    (hbefore : cells c ≠ .held i) (hstate : state ≠ .held i) :
    Holds i (Function.update cells c state) phase := by
  intro c'
  by_cases hc : c' = c
  · subst hc
    rw [Function.update_self]
    exact iff_of_false hstate fun hphase => hbefore (h.held hphase)
  · rw [Function.update_of_ne hc]
    exact h c'

private theorem Holds.own (h : Holds i cells phase) (hallows : phase.Allows q)
    (step : CellStep i cells q a cells') : Holds i cells' (phase.next parse q a) := by
  cases hallows with
  | enter c =>
    cases a with
    | some value =>
      obtain ⟨-, rfl⟩ := step
      exact h
    | none =>
      obtain ⟨-, rfl⟩ := step
      exact h.update_held
  | call q =>
    cases step
    exact h
  | fetch c =>
    cases step
    intro c'
    rw [CellPhase.cell_next_fetch]
    exact h c'
  | set c value =>
    cases step (h.held rfl)
    exact h.update_idle rfl nofun
  | release c =>
    cases step (h.held rfl)
    exact h.update_idle rfl nofun

omit [DecidableEq κ] in
private theorem CellState.held_ne {β : Type} (hne : j ≠ i) : (held j : CellState ι β) ≠ held i :=
  fun h => hne (CellState.held.inj h)

private theorem Holds.others (hne : j ≠ i) (h : Holds i cells phase) (hj : Holds j cells phase')
    (hallows : phase'.Allows q) (step : CellStep j cells q a cells') : Holds i cells' phase := by
  cases hallows with
  | enter c =>
    cases a with
    | some value =>
      obtain ⟨-, rfl⟩ := step
      exact h
    | none =>
      obtain ⟨hempty, rfl⟩ := step
      exact h.update_other (hempty ▸ nofun) (CellState.held_ne hne)
  | call q =>
    cases step
    exact h
  | fetch c =>
    cases step
    exact h
  | set c value =>
    have hc := hj.held rfl
    cases step hc
    exact h.update_other (hc ▸ CellState.held_ne hne) nofun
  | release c =>
    have hc := hj.held rfl
    cases step hc
    exact h.update_other (hc ▸ CellState.held_ne hne) nofun

/-! ## Fetched values -/

section
variable {σ : Type} {es : List (Occurrence ι σ (CellRequest κ V Q) (CellAnswer V A F) α)} {s : σ}
variable {c : κ} {v w : V c}

omit [DecidableEq κ] in
/-- Some process has fetched the value. -/
def Fetched (parse : (c : κ) → F c → Except ε (V c))
    (es : List (Occurrence ι σ (CellRequest κ V Q) (CellAnswer V A F) α)) (c : κ) (v : V c) : Prop :=
  ∃ i t a, .asked i t (.fetch c) a ∈ es ∧ parse c a = .ok v

omit [DecidableEq κ] in
theorem fetched_cons {t : σ} (hq : q ≠ .fetch c) :
    Fetched parse (.asked j t q a :: es) c v ↔ Fetched parse es c v := by
  constructor
  · rintro ⟨i, t, answer, hmem, hparse⟩
    rcases List.mem_cons.mp hmem with heq | hmem
    · cases heq
      exact absurd rfl hq
    · exact ⟨i, t, answer, hmem, hparse⟩
  · rintro ⟨i, t, answer, hmem, hparse⟩
    exact ⟨i, t, answer, List.mem_cons_of_mem _ hmem, hparse⟩

omit [DecidableEq κ] in
private theorem fetched_cons_fetch {t : σ} {answer : F c} :
    Fetched parse (.asked j t (.fetch c) answer :: es) c v ↔
      parse c answer = .ok v ∨ Fetched parse es c v := by
  constructor
  · rintro ⟨i, t, answer', hmem, hparse⟩
    rcases List.mem_cons.mp hmem with heq | hmem
    · cases heq
      exact .inl hparse
    · exact .inr ⟨i, t, answer', hmem, hparse⟩
  · rintro (hparse | ⟨i, t, answer', hmem, hparse⟩)
    · exact ⟨j, t, answer, List.mem_cons_self, hparse⟩
    · exact ⟨i, t, answer', List.mem_cons_of_mem _ hmem, hparse⟩

omit [DecidableEq κ] in
private theorem fetched_returned {r : α} :
    Fetched parse (.returned j r :: es) c v ↔ Fetched parse es c v := by
  constructor
  · rintro ⟨i, t, answer, hmem, hparse⟩
    rcases List.mem_cons.mp hmem with heq | hmem
    · cases heq
    · exact ⟨i, t, answer, hmem, hparse⟩
  · rintro ⟨i, t, answer, hmem, hparse⟩
    exact ⟨i, t, answer, List.mem_cons_of_mem _ hmem, hparse⟩

omit [DecidableEq κ] in
private theorem Fetched.of_suffix
    {es' : List (Occurrence ι σ (CellRequest κ V Q) (CellAnswer V A F) α)}
    (h : Fetched parse es' c v) (hes : es' <:+ es) : Fetched parse es c v := by
  obtain ⟨i, t, answer, hmem, hparse⟩ := h
  exact ⟨i, t, answer, hes.subset hmem, hparse⟩

/-- What the state of a cell says about the values that have been fetched for it. -/
def Settled (parse : (c : κ) → F c → Except ε (V c))
    (es : List (Occurrence ι σ (CellRequest κ V Q) (CellAnswer V A F) α)) (phases : ι → CellPhase V)
    (c : κ) : CellState ι (V c) → Prop
  | .empty => ∀ v, ¬ Fetched parse es c v
  | .held i => ∀ v, Fetched parse es c v ↔ phases i = .fetched c v
  | .full v => ∀ w, Fetched parse es c w ↔ w = v

structure CellsInvariant (parse : (c : κ) → F c → Except ε (V c))
    (es : List (Occurrence ι σ (CellRequest κ V Q) (CellAnswer V A F) α))
    (cells : (c : κ) → CellState ι (V c)) (phases : ι → CellPhase V) : Prop where
  holds : ∀ i, Holds i cells (phases i)
  settled : ∀ c, Settled parse es phases c (cells c)

namespace CellsInvariant
variable {phases : ι → CellPhase V} {t : σ}

omit [DecidableEq κ] in
private theorem unique (h : CellsInvariant parse es cells phases) (hv : Fetched parse es c v)
    (hw : Fetched parse es c w) : v = w := by
  have hsettled := h.settled c
  cases hc : cells c with
  | empty =>
    rw [hc] at hsettled
    exact absurd hv (hsettled v)
  | held i =>
    rw [hc] at hsettled
    have hphase := (hsettled v).mp hv
    rw [(hsettled w).mp hw] at hphase
    cases hphase
    rfl
  | full value =>
    rw [hc] at hsettled
    rw [(hsettled v).mp hv, (hsettled w).mp hw]

omit [DecidableEq κ] in
/-- Until its own fetch succeeds, the process that initialises a cell knows that no other has
succeeded. -/
theorem not_fetched (h : CellsInvariant parse es cells phases) (hc : (phases i).cell = some c)
    (hphase : phases i ≠ .fetched c v) : ¬ Fetched parse es c v := by
  have hsettled := h.settled c
  rw [(h.holds i).held hc] at hsettled
  exact fun hv => hphase ((hsettled v).mp hv)

omit [DecidableEq κ] in
private theorem not_fetched_of_allows (h : CellsInvariant parse es cells phases)
    (hallows : (phases j).Allows (Q := Q) (.fetch c)) : ¬ Fetched parse es c v := by
  generalize hj : phases j = phase at hallows
  cases hallows
  exact h.not_fetched (i := j) (by rw [hj]; rfl) (by simp [hj])

omit [DecidableEq κ] in
private theorem fetched_of_allows (h : CellsInvariant parse es cells phases)
    (hallows : (phases j).Allows (Q := Q) (.set c v)) : Fetched parse es c v := by
  generalize hj : phases j = phase at hallows
  cases hallows
  have hsettled := h.settled c
  rw [(h.holds j).held (by rw [hj]; rfl)] at hsettled
  exact (hsettled v).mpr hj

omit [DecidableEq κ] in
private theorem fetched_of_full (h : CellsInvariant parse es cells phases)
    (hc : cells c = .full v) : Fetched parse es c v := by
  have hsettled := h.settled c
  rw [hc] at hsettled
  exact (hsettled v).mpr rfl

variable [DecidableEq ι]

omit [DecidableEq κ] in
/-- A step of one process leaves a cell alone that it does not hold. -/
theorem frame (h : CellsInvariant parse es cells phases) (hq : q ≠ .fetch c)
    (hj : (phases j).cell ≠ some c) (p : CellPhase V) :
    Settled parse (.asked j t q a :: es) (Function.update phases j p) c (cells c) := by
  have hsettled := h.settled c
  cases hc : cells c with
  | empty =>
    rw [hc] at hsettled
    intro v hv
    exact hsettled v ((fetched_cons hq).mp hv)
  | held i =>
    rw [hc] at hsettled
    have hne : i ≠ j := by
      rintro rfl
      exact hj ((h.holds i c).mp hc)
    intro v
    rw [Function.update_of_ne hne]
    exact (fetched_cons hq).trans (hsettled v)
  | full value =>
    rw [hc] at hsettled
    intro w
    exact (fetched_cons hq).trans (hsettled w)

private theorem holds_update (h : CellsInvariant parse es cells phases)
    (hallows : (phases j).Allows q) (step : CellStep j cells q a cells') (i : ι) :
    Holds i cells' (Function.update phases j ((phases j).next parse q a) i) := by
  by_cases hi : i = j
  · subst hi
    rw [Function.update_self]
    exact (h.holds i).own hallows step
  · rw [Function.update_of_ne hi]
    exact (h.holds i).others (Ne.symm hi) (h.holds j) hallows step

private theorem settled_enter {c' : κ} (h : CellsInvariant parse es cells phases)
    (hj : phases j = .idle) (hempty : cells c = .empty) :
    Settled parse (.asked j t (.enter c) none :: es) (Function.update phases j (.held c)) c'
      (Function.update cells c (.held j) c') := by
  by_cases hc : c' = c
  · subst hc
    have hsettled := h.settled c'
    rw [hempty] at hsettled
    rw [Function.update_self]
    intro v
    rw [Function.update_self, fetched_cons (by simp)]
    exact iff_of_false (hsettled v) (by simp)
  · rw [Function.update_of_ne hc]
    exact h.frame (by simp) (by simp [hj, CellPhase.cell]) _

private theorem settled_fetch {c' : κ} {answer : F c} (h : CellsInvariant parse es cells phases)
    (hj : phases j = .held c) :
    Settled parse (.asked j t (.fetch c) answer :: es)
      (Function.update phases j ((phases j).next (A := A) (Q := Q) parse (.fetch c) answer)) c'
      (cells c') := by
  by_cases hc : c' = c
  · subst hc
    have hcell : (phases j).cell = some c' := by rw [hj]; rfl
    rw [(h.holds j).held hcell]
    intro v
    have hnot : ¬ Fetched parse es c' v := h.not_fetched hcell (by simp [hj])
    rw [Function.update_self, fetched_cons_fetch, or_iff_left hnot]
    simp only [CellPhase.next]
    cases parse c' answer with
    | error e => simp
    | ok value => simp
  · exact h.frame (by simpa using Ne.symm hc) (by simpa [hj, CellPhase.cell] using Ne.symm hc) _

private theorem settled_set {c' : κ} {value : V c} (h : CellsInvariant parse es cells phases)
    (hj : phases j = .fetched c value) :
    Settled parse (.asked j t (.set c value) () :: es) (Function.update phases j .idle) c'
      (Function.update cells c (.full value) c') := by
  by_cases hc : c' = c
  · subst hc
    have hcell : (phases j).cell = some c' := by rw [hj]; rfl
    have hsettled := h.settled c'
    rw [(h.holds j).held hcell] at hsettled
    rw [Function.update_self]
    intro w
    rw [fetched_cons (by simp)]
    refine (hsettled w).trans ?_
    rw [hj]
    simp [eq_comm]
  · rw [Function.update_of_ne hc]
    exact h.frame (by simp) (by simpa [hj, CellPhase.cell] using Ne.symm hc) _

private theorem settled_release {c' : κ} (h : CellsInvariant parse es cells phases)
    (hj : phases j = .failed c) :
    Settled parse (.asked j t (.release c) () :: es) (Function.update phases j .idle) c'
      (Function.update cells c .empty c') := by
  by_cases hc : c' = c
  · subst hc
    rw [Function.update_self]
    intro v
    rw [fetched_cons (by simp)]
    exact h.not_fetched (i := j) (by rw [hj]; rfl) (by simp [hj])
  · rw [Function.update_of_ne hc]
    exact h.frame (by simp) (by simpa [hj, CellPhase.cell] using Ne.symm hc) _

theorem step (h : CellsInvariant parse es cells phases) (hallows : (phases j).Allows q)
    (hstep : CellStep j cells q a cells') : CellsInvariant parse (.asked j t q a :: es) cells'
      (Function.update phases j ((phases j).next parse q a)) where
  holds := h.holds_update hallows hstep
  settled c := by
    generalize hj : phases j = phase at hallows
    cases hallows with
    | enter c =>
      cases a with
      | some value =>
        obtain ⟨-, rfl⟩ := hstep
        exact h.frame (by simp) (by simp [hj, CellPhase.cell]) _
      | none =>
        obtain ⟨hempty, rfl⟩ := hstep
        exact h.settled_enter hj hempty
    | call q =>
      cases hstep
      exact h.frame (by simp) (by simp [hj, CellPhase.cell]) _
    | fetch c =>
      cases hstep
      rw [← hj]
      exact h.settled_fetch hj
    | set c value =>
      cases hstep ((h.holds j).held (by rw [hj]; rfl))
      exact h.settled_set hj
    | release c =>
      cases hstep ((h.holds j).held (by rw [hj]; rfl))
      exact h.settled_release hj

omit [DecidableEq κ] [DecidableEq ι] in
theorem returned {r : α} (h : CellsInvariant parse es cells phases) :
    CellsInvariant parse (.returned j r :: es) cells phases where
  holds := h.holds
  settled c := by
    have hsettled := h.settled c
    cases hc : cells c with
    | empty =>
      rw [hc] at hsettled
      intro v hv
      exact hsettled v (fetched_returned.mp hv)
    | held i =>
      rw [hc] at hsettled
      exact fun v => fetched_returned.trans (hsettled v)
    | full value =>
      rw [hc] at hsettled
      exact fun w => fetched_returned.trans (hsettled w)

omit [DecidableEq κ] [DecidableEq ι] in
theorem init (hempty : ∀ c, cells c = .empty) :
    CellsInvariant (A := A) (Q := Q) (σ := σ) (α := α) parse [] cells fun _ => .idle where
  holds i c := by simp [hempty c, CellPhase.cell]
  settled c := by
    rw [hempty c]
    rintro v ⟨i, t, answer, hmem, -⟩
    cases hmem

end CellsInvariant

/-! ## Whole runs -/

/-- What the histories of a pool show of its cells. -/
structure SetOnce (parse : (c : κ) → F c → Except ε (V c))
    (es : List (Occurrence ι σ (CellRequest κ V Q) (CellAnswer V A F) α)) : Prop where
  /-- No value is fetched again. -/
  once : Along (fun earlier e => ∀ i t c answer, e = .asked i t (.fetch c) answer →
    ∀ v, ¬ Fetched parse earlier c v) es
  unique : ∀ c v w, Fetched parse es c v → Fetched parse es c w → v = w
  /-- What a process finds in a cell or puts there has been fetched. -/
  origin : ∀ i t c v, .asked i t (.enter c) (some v) ∈ es ∨ .asked i t (.set c v) () ∈ es →
    Fetched parse es c v

variable [DecidableEq ι] {H : ι → σ → (q : CellRequest κ V Q) → CellAnswer V A F q → σ → Prop}
variable {start : ι → Process (CellRequest κ V Q) (CellAnswer V A F) α} {s₀ : σ}
variable {ps : ι → Option (Process (CellRequest κ V Q) (CellAnswer V A F) α)}
variable {post : ι → CellPhase V → α → Prop}

theorem Interleaving.cellsInvariant (view : σ → (c : κ) → CellState ι (V c))
    (hH : ∀ i s q a s', H i s q a s' → CellStep i (view s) q a (view s'))
    (hobeys : ∀ i, (start i).Obeys (cellMonitor A parse) (post i) .idle)
    (hempty : ∀ c, view s₀ c = .empty) (run : Interleaving H start s₀ es s ps) :
    CellsInvariant parse es (view s) fun i => (cellMonitor A parse).after (exchangesOf i es) := by
  induction run with
  | init => exact .init hempty
  | @asked es s s' ps j q a resume run waiting step ih =>
    have hallows := ((run.guards (M := cellMonitor A parse) (hobeys j)).1 _ waiting).1
    rw [Monitor.after_asked]
    exact ih.step hallows (hH _ _ _ _ _ step)
  | returned run finished ih => exact ih.returned

/-- Every process that uses the cells as `getOrTryInit` does keeps to them in every
interleaving. -/
theorem Interleaving.setOnce (view : σ → (c : κ) → CellState ι (V c))
    (hH : ∀ i s q a s', H i s q a s' → CellStep i (view s) q a (view s'))
    (hobeys : ∀ i, (start i).Obeys (cellMonitor A parse) (post i) .idle)
    (hempty : ∀ c, view s₀ c = .empty) (run : Interleaving H start s₀ es s ps) : SetOnce parse es where
  once := by
    induction run with
    | init => trivial
    | @asked es s s' ps j q a resume run waiting step ih =>
      refine ⟨?_, ih⟩
      intro i t c answer heq v
      cases heq
      have hinv := run.cellsInvariant view hH hobeys hempty
      have hallows := ((run.guards (M := cellMonitor A parse) (hobeys j)).1 _ waiting).1
      exact hinv.not_fetched_of_allows hallows
    | returned run finished ih => exact ⟨nofun, ih⟩
  unique c v w hv hw := (run.cellsInvariant view hH hobeys hempty).unique hv hw
  origin := by
    induction run with
    | init =>
      rintro i t c v (hmem | hmem)
      · cases hmem
      · cases hmem
    | @asked es s s' ps j q a resume run waiting step ih =>
      have hinv := run.cellsInvariant view hH hobeys hempty
      have hallows := ((run.guards (M := cellMonitor A parse) (hobeys j)).1 _ waiting).1
      rintro i t c v (hmem | hmem)
      · rcases List.mem_cons.mp hmem with heq | hmem
        · cases heq
          exact (hinv.fetched_of_full (hH _ _ _ _ _ step).1).of_suffix (List.suffix_cons _ _)
        · exact (ih i t c v (.inl hmem)).of_suffix (List.suffix_cons _ _)
      · rcases List.mem_cons.mp hmem with heq | hmem
        · cases heq
          exact (hinv.fetched_of_allows hallows).of_suffix (List.suffix_cons _ _)
        · exact (ih i t c v (.inr hmem)).of_suffix (List.suffix_cons _ _)
    | @returned es s ps j r run finished ih =>
      rintro i t c v (hmem | hmem)
      · rcases List.mem_cons.mp hmem with heq | hmem
        · cases heq
        · exact (ih i t c v (.inl hmem)).of_suffix (List.suffix_cons _ _)
      · rcases List.mem_cons.mp hmem with heq | hmem
        · cases heq
        · exact (ih i t c v (.inr hmem)).of_suffix (List.suffix_cons _ _)

end

end
end NearKit
