import Mathlib.Data.List.Forall2
import Pipework.Pipeline.Basic
import Pipework.Proofs.Lint.Scan
import Pipework.Proofs.Yaml.Inline

/-!
# Pipelines of one shape

Two pipelines have one shape if they start on the same events and have the same jobs and steps up to
what these are called: `SameShape` leaves open the text of every name, value, condition and
schedule, and asks only that a text that is left out in one of them is left out in the other.

`Alike doc doc'` says of two laid-out documents that no line of theirs breaks, and that line by line
they have the same number of spaces in front.  It is kept by whatever puts documents together, so
that it comes down to single lines, whose texts must be `Unindented`: they begin with something else
than a space and have no line feed.
-/

namespace Pipework

open Layout
open Text (dropReturn)
open Yaml (OneLine)

/-! ## Shapes -/

/-- The same events, with a schedule in both or in neither. -/
structure Trigger.SameShape (t t' : Trigger) : Prop where
  push : t.push = t'.push
  pullRequest : t.pullRequest = t'.pullRequest
  tags : t.tags = t'.tags
  schedule : t.hasSchedule = t'.hasSchedule
  paths : t.paths.isEmpty = t'.paths.isEmpty
  workflowDispatch : t.workflowDispatch = t'.workflowDispatch

/-- The same step, but for its name and its condition. -/
structure Step.SameShape (s s' : Step) : Prop where
  kind : s.kind = s'.kind
  content : s.content = s'.content
  condition : s.condition.isSome = s'.condition.isSome
  continueOnError : s.continueOnError = s'.continueOnError

/-- Matrices with as many axes that have values, and a failure policy in both or in neither. -/
structure Strategy.SameShape (s s' : Strategy) : Prop where
  axes : s.axes.length = s'.axes.length
  failFast : s.failFast.isSome = s'.failFast.isSome

/-- The same job, but for the texts in it. -/
structure Job.SameShape (j j' : Job) : Prop where
  runsOn : j.runsOn.isEmpty = j'.runsOn.isEmpty
  dockerImage : j.dockerImage.isSome = j'.dockerImage.isSome
  steps : List.Forall₂ Step.SameShape j.steps j'.steps
  cache : j.cache = j'.cache
  envVars : j.envVars.length = j'.envVars.length
  needs : j.needs.isEmpty = j'.needs.isEmpty
  timeout : j.timeout.isSome = j'.timeout.isSome
  strategy : Option.Rel Strategy.SameShape j.strategy j'.strategy

/-- The same pipeline, but for the texts in it. -/
structure Pipeline.SameShape (p p' : Pipeline) : Prop where
  triggers : p.triggers.SameShape p'.triggers
  secrets : p.secrets.length = p'.secrets.length
  jobs : List.Forall₂ Job.SameShape p.jobs p'.jobs

lemma Trigger.SameShape.refl (t : Trigger) : t.SameShape t := ⟨rfl, rfl, rfl, rfl, rfl, rfl⟩

lemma Job.SameShape.refl (j : Job) : j.SameShape j where
  runsOn := rfl
  dockerImage := rfl
  steps := List.forall₂_same.2 fun _ _ => ⟨rfl, rfl, rfl, rfl⟩
  cache := rfl
  envVars := rfl
  needs := rfl
  timeout := rfl
  strategy := by
    cases j.strategy with
    | none => exact .none
    | some s => exact .some ⟨rfl, rfl⟩

lemma Pipeline.SameShape.refl (p : Pipeline) : p.SameShape p where
  triggers := .refl _
  secrets := rfl
  jobs := List.forall₂_same.2 fun j _ => .refl j

lemma isEmpty_congr {α β : Type} {xs : List α} {ys : List β} (h : xs.length = ys.length) :
    xs.isEmpty = ys.isEmpty := by
  rw [Bool.eq_iff_iff, List.isEmpty_iff_length_eq_zero, List.isEmpty_iff_length_eq_zero, h]

lemma Trigger.SameShape.any_eq {t t' : Trigger} (h : t.SameShape t') : t.any = t'.any := by
  rw [any, any, h.push, h.pullRequest, h.tags, h.schedule, h.workflowDispatch]

lemma Strategy.SameShape.hasMatrix_eq {s s' : Strategy} (h : s.SameShape s') :
    s.hasMatrix = s'.hasMatrix := by
  rw [hasMatrix, hasMatrix, isEmpty_congr h.axes]

lemma Strategy.SameShape.isEmpty_eq {s s' : Strategy} (h : s.SameShape s') :
    s.isEmpty = s'.isEmpty := by
  rw [Strategy.isEmpty, Strategy.isEmpty, h.hasMatrix_eq, ← Option.not_isSome, h.failFast,
    Option.not_isSome]

lemma Job.SameShape.effectiveStrategy {j j' : Job} (h : j.SameShape j') :
    Option.Rel Strategy.SameShape j.effectiveStrategy j'.effectiveStrategy := by
  have hstrategy := h.strategy
  unfold Job.effectiveStrategy
  generalize j.strategy = o at hstrategy
  generalize j'.strategy = o' at hstrategy
  cases hstrategy with
  | none => exact .none
  | @some s s' hs =>
    rw [Option.filter_some, Option.filter_some, hs.isEmpty_eq]
    split
    · exact .some hs
    · exact .none

/-! ## Single lines -/

/-- A text that begins with something else than a space and stands on one line. -/
structure Unindented (text : List Char) : Prop where
  head : text.head?.any (· != ' ') = true
  noFeed : '\n' ∉ text

instance (text : List Char) : Decidable (Unindented text) :=
  decidable_of_iff (text.head?.any (· != ' ') = true ∧ '\n' ∉ text)
    ⟨fun h => ⟨h.1, h.2⟩, fun h => ⟨h.1, h.2⟩⟩

namespace Unindented

lemma append {s t : List Char} (hs : Unindented s) (ht : '\n' ∉ t) : Unindented (s ++ t) := by
  obtain ⟨hhead, hfeed⟩ := hs
  cases s with
  | nil => simp at hhead
  | cons c s => exact ⟨hhead, by simpa [ht] using hfeed⟩

lemma scalar (s : List Char) : Unindented (Yaml.scalar s) := by
  refine ⟨?_, (OneLine.scalar s).noFeed⟩
  rcases Yaml.scalar_eq_self_or_quoted s with ⟨hplain, hscalar⟩ | ⟨q, rest, hq, hscalar⟩
  · rw [hscalar]
    have hallowed := hplain.allowed
    obtain ⟨c, t, rfl⟩ := List.exists_cons_of_ne_nil hplain.ne_nil
    simp only [Yaml.plainAllowed, Bool.not_eq_eq_eq_not, Bool.not_true, Bool.or_eq_false_iff,
      beq_eq_false_iff_ne, List.head?_cons] at hallowed
    have hc : c ≠ ' ' := fun heq => hallowed.1.1.1.2 (congrArg some heq)
    simp [hc]
  · rw [hscalar]
    rcases hq with rfl | rfl <;> rfl

end Unindented

/-- The spaces in front of a line as it is read again. -/
def Layout.Line.spaces (l : Line) : Nat := Lint.leadingSpaces l.shown

lemma Unindented.spaces_eq {l : Line} (h : Unindented l.text) :
    l.spaces = l.level * levelWidth := by
  obtain ⟨hhead, -⟩ := h
  obtain ⟨level, text⟩ := l
  cases text with
  | nil => simp at hhead
  | cons c text => exact Lint.leadingSpaces_shown_cons (by simpa using hhead)

/-! ## Documents -/

/-- No line of the documents breaks, and line by line they have as many spaces in front. -/
structure Alike (doc doc' : List Line) : Prop where
  noFeed : ∀ l ∈ doc, '\n' ∉ l.text
  noFeed' : ∀ l ∈ doc', '\n' ∉ l.text
  spaces_eq : doc.map Line.spaces = doc'.map Line.spaces

namespace Alike

variable {doc doc' front front' back back' : List Line} {level : Nat}
  {name name' value value' : List Char}

lemma refl (h : ∀ l ∈ doc, '\n' ∉ l.text) : Alike doc doc := ⟨h, h, rfl⟩

lemma nil : Alike [] [] := refl (by simp)

lemma append (hfront : Alike front front') (hback : Alike back back') :
    Alike (front ++ back) (front' ++ back') where
  noFeed := List.forall_mem_append.2 ⟨hfront.noFeed, hback.noFeed⟩
  noFeed' := List.forall_mem_append.2 ⟨hfront.noFeed', hback.noFeed'⟩
  spaces_eq := by rw [List.map_append, List.map_append, hfront.spaces_eq, hback.spaces_eq]

lemma cons {l l' : Line} (hl : Alike [l] [l']) (hdoc : Alike doc doc') :
    Alike (l :: doc) (l' :: doc') :=
  hl.append hdoc

lemma line {l l' : Line} (h : Unindented l.text) (h' : Unindented l'.text)
    (hlevel : l.level = l'.level) : Alike [l] [l'] where
  noFeed := List.forall_mem_singleton.2 h.noFeed
  noFeed' := List.forall_mem_singleton.2 h'.noFeed
  spaces_eq := by rw [List.map_singleton, List.map_singleton, h.spaces_eq, h'.spaces_eq, hlevel]

/-- Keys with lines below them. -/
lemma key (h : Unindented name) (h' : Unindented name') :
    Alike [Layout.key level name] [Layout.key level name'] :=
  line (h.append (by decide)) (h'.append (by decide)) rfl

/-- Keys with their values. -/
lemma entry (h : Unindented name) (h' : Unindented name') (hvalue : '\n' ∉ value)
    (hvalue' : '\n' ∉ value') :
    Alike [Layout.entry level name value] [Layout.entry level name' value'] :=
  line (h.append (by simpa using hvalue)) (h'.append (by simpa using hvalue')) rfl

lemma ite {c c' : Prop} [Decidable c] [Decidable c'] (hc : c ↔ c') (ht : Alike front front')
    (he : Alike back back') : Alike (if c then front else back) (if c' then front' else back') := by
  by_cases h : c
  · rw [if_pos h, if_pos (hc.1 h)]
    exact ht
  · rw [if_neg h, if_neg fun h' => h (hc.2 h')]
    exact he

lemma option_line {α β : Type} {o : Option α} {o' : Option β} {f : α → Line} {g : β → Line}
    (ho : o.isSome = o'.isSome) (h : ∀ x y, Alike [f x] [g y]) :
    Alike (o.map f).toList (o'.map g).toList := by
  cases o with
  | none =>
    obtain rfl : o' = .none := by simpa using ho.symm
    exact nil
  | some x =>
    obtain ⟨y, rfl⟩ := Option.isSome_iff_exists.1 ho.symm
    exact h x y

lemma option {α β : Type} {R : α → β → Prop} {o : Option α} {o' : Option β} {f : α → List Line}
    {g : β → List Line} (ho : Option.Rel R o o') (h : ∀ x y, R x y → Alike (f x) (g y)) :
    Alike ((o.map f).getD []) ((o'.map g).getD []) := by
  cases ho with
  | none => exact nil
  | some hxy => exact h _ _ hxy

lemma map {α β : Type} {xs : List α} {ys : List β} {f : α → Line} {g : β → Line}
    (hlen : xs.length = ys.length) (h : ∀ x ∈ xs, ∀ y ∈ ys, Alike [f x] [g y]) :
    Alike (xs.map f) (ys.map g) := by
  induction xs generalizing ys with
  | nil =>
    obtain rfl : ys = [] := List.length_eq_zero_iff.1 hlen.symm
    exact nil
  | cons x xs ih =>
    cases ys with
    | nil => simp at hlen
    | cons y ys =>
      refine cons (h x List.mem_cons_self y List.mem_cons_self) (ih (by simpa using hlen) ?_)
      intro x' hx' y' hy'
      exact h x' (List.mem_cons_of_mem _ hx') y' (List.mem_cons_of_mem _ hy')

lemma flatMap {α β : Type} {R : α → β → Prop} {xs : List α} {ys : List β} {f : α → List Line}
    {g : β → List Line} (hxs : List.Forall₂ R xs ys) (h : ∀ x y, R x y → Alike (f x) (g y)) :
    Alike (xs.flatMap f) (ys.flatMap g) := by
  induction hxs with
  | nil => exact nil
  | cons hxy _ ih =>
    rw [List.flatMap_cons, List.flatMap_cons]
    exact (h _ _ hxy).append ih

/-- The texts of such documents have the same lines up to what follows the spaces in front. -/
theorem leadingSpaces_lines_write (h : Alike doc doc') :
    (Text.lines (write doc)).map Lint.leadingSpaces =
      (Text.lines (write doc')).map Lint.leadingSpaces := by
  rw [Lint.lines_write h.noFeed, Lint.lines_write h.noFeed', List.map_map, List.map_map]
  exact h.spaces_eq

end Alike

end Pipework
