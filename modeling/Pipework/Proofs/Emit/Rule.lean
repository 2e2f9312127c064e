import Pipework.Emit.Gitlab
import Pipework.Proofs.Yaml.Controls

/-!
# Branches in rules

The rule for pushes holds the name of a branch behind two pairs of quotes: the branch stands between
double quotes in a condition, and the condition between single quotes.  Either kind of quotes
escapes in its own way and knows nothing of the other.  `unsingled` takes the single quotes back,
and refuses a quote that stands alone inside; `Yaml.unquoted` takes the double quotes back.  One
after the other they give the branch that was written (`branch_of_pushRule`), whatever quotes,
backslashes and line breaks are in its name, so that no name reaches out of its place in the
condition, out of the rule or off its line.
-/

namespace Pipework

namespace Text

/-! ## Single quotes taken back -/

/-- No quote stands alone: behind every one stands its double. -/
def QuotesDoubled : List Char → Prop
  | [] => True
  | '\'' :: '\'' :: rest => QuotesDoubled rest
  | c :: rest => c ≠ '\'' ∧ QuotesDoubled rest

/-- The string that the inside of a single-quoted text stands for, with the closing quote behind
it. -/
def unsingledBody : List Char → Option (List Char)
  | [] => none
  | ['\''] => some []
  | '\'' :: '\'' :: rest => (unsingledBody rest).map ('\'' :: ·)
  | c :: rest => if c = '\'' then none else (unsingledBody rest).map (c :: ·)

/-- The string that a text between single quotes stands for. -/
def unsingled : List Char → Option (List Char)
  | '\'' :: rest => unsingledBody rest
  | _ => none

lemma quotesDoubled_flatMap (s : List Char) : QuotesDoubled (s.flatMap doubleSingleQuote) := by
  induction s with
  | nil => trivial
  | cons c s ih =>
    by_cases hc : c = '\''
    · subst hc
      exact ih
    · rw [List.flatMap_cons, Yaml.doubleSingleQuote_of_ne hc]
      simpa [QuotesDoubled, hc] using ih

/-- Every string comes back when its single quotes are taken back. -/
theorem unsingled_singleQuoted (s : List Char) : unsingled (singleQuoted s) = some s := by
  have hbody : unsingledBody (s.flatMap doubleSingleQuote ++ ['\'']) = some s := by
    induction s with
    | nil => rfl
    | cons c s ih =>
      by_cases hc : c = '\''
      · subst hc
        have hpair : ('\'' :: s).flatMap doubleSingleQuote ++ ['\''] =
            '\'' :: '\'' :: (s.flatMap doubleSingleQuote ++ ['\'']) := rfl
        rw [hpair, unsingledBody, ih]
        rfl
      · rw [List.flatMap_cons, Yaml.doubleSingleQuote_of_ne hc, List.append_assoc]
        simp [unsingledBody, hc, ih]
  exact hbody

end Text

namespace Emit.Gitlab

open Text (QuotesDoubled doubleQuoted singleQuoted unsingled)

/-- What stands in front of the branch in the condition for pushes to it. -/
def branchCondition : List Char := "$CI_PIPELINE_SOURCE == \"push\" && $CI_COMMIT_BRANCH == ".toList

/-- The branch that a rule for pushes names: what is between double quotes behind the fixed part of
what is between single quotes. -/
def branch? (rule : List Char) : Option (List Char) := do
  let condition ← unsingled rule
  let quoted ← condition.dropPrefix? branchCondition
  Yaml.unquoted quoted

/-- Line breaks of a name are not in its condition, since they are escaped there. -/
lemma notMem_branchCondition_append {c : Char} (hc : c = '\n' ∨ c = '\r') (branch : List Char) :
    c ∉ branchCondition ++ doubleQuoted branch := by
  have hfixed : '\n' ∉ branchCondition ∧ '\r' ∉ branchCondition := by decide +kernel
  have hcontrol : Yaml.IsControl c ∧ c ∈ Yaml.escapedControls := by
    rcases hc with rfl | rfl <;> decide
  rw [List.mem_append, not_or, Yaml.mem_doubleQuoted_iff hcontrol.1]
  refine ⟨?_, fun hmem => hmem.2 hcontrol.2⟩
  rcases hc with rfl | rfl
  · exact hfixed.1
  · exact hfixed.2

lemma branch?_singleQuoted (branch : List Char) :
    branch? (singleQuoted (branchCondition ++ doubleQuoted branch)) = some branch := by
  have hprefix : (branchCondition ++ doubleQuoted branch).dropPrefix? branchCondition =
      some (doubleQuoted branch) :=
    List.dropPrefix?_eq_some_iff.2 ⟨branchCondition, rfl, by simp⟩
  simp [branch?, Text.unsingled_singleQuoted, hprefix, Yaml.unquoted_doubleQuoted]

/-- The rule for pushes stands on one line, between two single quotes with every quote inside
doubled, and names exactly the first branch of the trigger: taking back the single quotes, the fixed
part of the condition and the double quotes gives its name, whatever is in it. -/
theorem branch_of_pushRule {t : Trigger} {branch : String} {others : List String}
    (hpush : t.push = true) (hbranches : t.branches = branch :: others) :
    ∃ inner more, rules t = ('\'' :: inner ++ ['\'']) :: more ∧
      QuotesDoubled inner ∧ '\n' ∉ '\'' :: inner ++ ['\''] ∧ '\r' ∉ '\'' :: inner ++ ['\''] ∧
      branch? ('\'' :: inner ++ ['\'']) = some branch.toList := by
  have hrules : ∃ more, rules t =
      singleQuoted (branchCondition ++ doubleQuoted branch.toList) :: more := by
    rw [rules, conditions, if_pos hpush, hbranches]
    exact ⟨_, rfl⟩
  obtain ⟨more, hrules⟩ := hrules
  have hline {c : Char} (hc : c = '\n' ∨ c = '\r') :
      c ∉ singleQuoted (branchCondition ++ doubleQuoted branch.toList) := by
    have hquote : c ≠ '\'' := by
      rcases hc with rfl | rfl <;> decide
    exact Yaml.notMem_singleQuoted hquote (notMem_branchCondition_append hc branch.toList)
  exact ⟨_, more, hrules, Text.quotesDoubled_flatMap _, hline (.inl rfl), hline (.inr rfl),
    branch?_singleQuoted branch.toList⟩

/-- A name that would end both pairs of quotes, go on with a condition of its own and break the
line. -/
theorem branch_of_pushRule_intruding :
    ∃ t : Trigger, t.push = true ∧ t.branches = ["a\" || 'b\\\n'", "dev"] ∧
      ∃ inner more, rules t = ('\'' :: inner ++ ['\'']) :: more ∧
        QuotesDoubled inner ∧ '\n' ∉ '\'' :: inner ++ ['\''] ∧ '\r' ∉ '\'' :: inner ++ ['\''] ∧
        branch? ('\'' :: inner ++ ['\'']) = some "a\" || 'b\\\n'".toList := by
  have hbranches : ({ branches := ["a\" || 'b\\\n'", "dev"], tags := true } : Trigger).branches =
      "a\" || 'b\\\n'" :: ["dev"] := rfl
  exact ⟨_, rfl, hbranches, branch_of_pushRule rfl hbranches⟩

end Emit.Gitlab

end Pipework
