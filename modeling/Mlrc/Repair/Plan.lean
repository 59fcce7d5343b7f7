import Mlrc.Repair.System
import Mlrc.Data.Search

/-!
# The repair planner

The four equation policies of gLRC repair, as the source computes them.  A plan selects as many
equations as there are failed blocks; `fillPlanFromSelection` accepts a selection when it covers the
failed blocks and its matrix is invertible.

A set of block ids is the list it was built from.  Of a plan everything but its timing is kept.  The
combinations of the fallback are sorted by a `StdSort`, since equal scores may come in any order.
-/

namespace Mlrc

structure GlrcIlpRepairPlan where
  success : Bool := false
  failedBlockIds : List ℕ := []
  selectedEquations : List String := []
  selectedEquationIndices : List ℕ := []
  helperBlockIds : List ℕ := []
  helperBlockCount : ℕ := 0
  errorMessage : String := ""
deriving DecidableEq, Repr

/-! ## Selections -/

def helperBlocksForEquation (equations : List GlrcEquation) (failed : List ℕ) (idx : ℕ) : List ℕ :=
  (involvedBlocks equations idx).filter fun b => b ∉ failed

/-- the helpers of `union_helper_count`, which returns their number -/
def unionHelpers (selected : List ℕ) (equations : List GlrcEquation) (failed : List ℕ) : List ℕ :=
  ((selected.flatMap (helperBlocksForEquation equations failed)).dedup).insertionSort (· ≤ ·)

def combinationCovers (combo : List ℕ) (equations : List GlrcEquation) (failed : List ℕ) : Bool :=
  (combo.flatMap fun idx => (involvedBlocks equations idx).filter fun b => b ∈ failed).dedup.length
    == failed.dedup.length

/-- `enumerate_combinations` below a node of its recursion: `m` entries are still to be chosen -/
def enumerateFrom (n : ℕ) : ℕ → ℕ → List ℕ → List (List ℕ)
  | 0, _, current => [current]
  | m + 1, start, current =>
    (List.range' start (n - m - start)).flatMap fun i => enumerateFrom n m (i + 1) (current ++ [i])

/-- `enumerate_combinations` from the root -/
def enumerateCombinations (n f : ℕ) : List (List ℕ) := enumerateFrom n f 0 []

/-- the equations of a list of positions in the candidate list -/
def selectedOf (candidates positions : List ℕ) : List ℕ := positions.map fun pos => candidates.getD pos 0

def equationName (equations : List GlrcEquation) (idx : ℕ) : String :=
  (equations[idx]?.map GlrcEquation.name).getD ""

/-- the two tests every policy makes before it takes a selection -/
def selectionOk (k r z : ℕ) (equations : List GlrcEquation) (failed selected : List ℕ) : Bool :=
  combinationCovers selected equations failed && glrcIlpDecodeMatrixInvertible k r z failed selected

/-- the fields of a plan that takes a selection -/
def planOf (equations : List GlrcEquation) (selected helpers : List ℕ) (plan : GlrcIlpRepairPlan) :
    GlrcIlpRepairPlan :=
  { plan with
    success := true
    selectedEquationIndices := selected
    helperBlockIds := helpers
    helperBlockCount := helpers.length
    selectedEquations := selected.map (equationName equations) }

/-- `fill_plan_from_selection`; `none` for false, which leaves the plan alone -/
def fillPlanFromSelection (k r z : ℕ) (equations : List GlrcEquation) (failed : List ℕ)
    (plan : GlrcIlpRepairPlan) (selected : List ℕ) : Option GlrcIlpRepairPlan :=
  if selectionOk k r z equations failed selected then
    some (planOf equations selected (unionHelpers selected equations failed) plan)
  else none

/-! ## Exhaustive policies -/

/-- the tests that three of the policies make before they select from the candidates -/
def withCandidates
    (select : List GlrcEquation → List ℕ → GlrcIlpRepairPlan → Bool × GlrcIlpRepairPlan)
    (k r z : ℕ) (failed : List ℕ) : Bool × GlrcIlpRepairPlan :=
  let plan : GlrcIlpRepairPlan := { failedBlockIds := failed }
  if failed = [] then (false, { plan with errorMessage := "empty failure set" })
  else
    let (equations, candidates) := glrcBuildRecoveryEquations k r z failed
    if candidates.length < failed.length then
      (false, { plan with errorMessage := "not enough candidate equations" })
    else select equations candidates plan

/-- the two policies that scan all combinations for the best admissible one, by their comparison of
two selections and their error text -/
def solveByScan (better : List GlrcEquation → List ℕ → List ℕ → List ℕ → Bool) (message : String)
    (k r z : ℕ) (failed : List ℕ) : Bool × GlrcIlpRepairPlan :=
  withCandidates (fun equations candidates plan =>
    let combos := (enumerateCombinations candidates.length failed.length).map (selectedOf candidates)
    match scanBest (selectionOk k r z equations failed) (better equations failed) combos with
    | none => (false, { plan with errorMessage := message })
    | some best => (true, planOf equations best (unionHelpers best equations failed) plan))
    k r z failed

/-- fewer helpers; `INT_MAX` helpers stand for no combination yet -/
def fewerHelpers (equations : List GlrcEquation) (failed x b : List ℕ) : Bool :=
  (unionHelpers x equations failed).length < (unionHelpers b equations failed).length

def glrcSolveRepairIlp (k r z : ℕ) (failed : List ℕ) : Bool × GlrcIlpRepairPlan :=
  solveByScan fewerHelpers "no decodable equation combination (cover + invertible matrix)"
    k r z failed

def equationFailedCoverCount (equations : List GlrcEquation) (failed : List ℕ) (idx : ℕ) : ℕ :=
  ((involvedBlocks equations idx).filter fun b => b ∈ failed).length

/-- the fields of `Candidate` that decide which one is better -/
structure LocalScore where
  localCount : ℕ
  localFailedCover : ℕ
  helperCount : ℕ
  selected : List ℕ

def localScore (z : ℕ) (equations : List GlrcEquation) (failed selected : List ℕ) : LocalScore where
  localCount := (selected.filter fun e => e < z).length
  localFailedCover :=
    ((selected.filter fun e => e < z).map (equationFailedCoverCount equations failed)).sum
  helperCount := (unionHelpers selected equations failed).length
  selected := selected

/-- the comparison `better` against a found candidate -/
def LocalScore.better (c b : LocalScore) : Bool :=
  b.localCount < c.localCount ||
  (c.localCount == b.localCount && b.localFailedCover < c.localFailedCover) ||
  (c.localCount == b.localCount && c.localFailedCover == b.localFailedCover &&
    c.helperCount < b.helperCount) ||
  (c.localCount == b.localCount && c.localFailedCover == b.localFailedCover &&
    c.helperCount == b.helperCount && c.selected < b.selected)

def glrcSolveRepairLocalFirst (k r z : ℕ) (failed : List ℕ) : Bool × GlrcIlpRepairPlan :=
  solveByScan
    (fun equations failed x b =>
      (localScore z equations failed x).better (localScore z equations failed b))
    "local-first could not find decodable equation set" k r z failed

/-! ## Local variants and the fallback -/

def localThenGlobalPrimaryEquationIndex (failedId k r z : ℕ) : ℕ :=
  if failedId < k + r then glrcPayloadGroupId failedId k r z else failedId - k - r

/-- overwrite the first local entry of a list; `none` if there is none -/
def replaceFirstLocal (z lg : ℕ) : List ℕ → Option (List ℕ)
  | [] => none
  | a :: l => if a < z then some (lg :: l) else (replaceFirstLocal z lg l).map (a :: ·)

/-- the variant of `base` with equation `lg`: in place of its last local entry, or else of its last -/
def localVariant (z : ℕ) (base : List ℕ) (lg : ℕ) : List ℕ :=
  match replaceFirstLocal z lg base.reverse with
  | some v => v.reverse
  | none => if base = [] then base else base.dropLast ++ [lg]

def tryLocalVariants (base : List ℕ) (k r z : ℕ) (failed : List ℕ) (equations : List GlrcEquation)
    (plan : GlrcIlpRepairPlan) : Option GlrcIlpRepairPlan :=
  let anchorLocal := localThenGlobalPrimaryEquationIndex (failed.getD 0 0) k r z
  let tryLocals := anchorLocal :: (List.range z).filter fun lg => lg ≠ anchorLocal
  (base :: (tryLocals.filter fun lg => lg ∉ base).map (localVariant z base)).findSome?
    (fillPlanFromSelection k r z equations failed plan)

def buildGlobalPrefixSelection (f r z : ℕ) : List ℕ :=
  ((List.range r).map (z + ·) ++ List.range z).take f

/-- the score of the positions of a combination: more globals first, then smaller index sum -/
def comboScore (z : ℕ) (candidates positions : List ℕ) : ℤ × ℕ :=
  let eqs := selectedOf candidates positions
  (-((eqs.filter fun e => z ≤ e).length : ℤ), eqs.sum)

/-- the order of `std::pair` -/
def comboLt (z : ℕ) (candidates a b : List ℕ) : Bool :=
  let sa := comboScore z candidates a
  let sb := comboScore z candidates b
  sa.1 < sb.1 || (sa.1 == sb.1 && sa.2 < sb.2)

def tryGlobalFirstFallback (S : StdSort) (f k r z : ℕ) (failed : List ℕ)
    (equations : List GlrcEquation) (candidates : List ℕ) (plan : GlrcIlpRepairPlan) :
    Option GlrcIlpRepairPlan :=
  let globals := buildGlobalPrefixSelection f r z
  let fromGlobals :=
    if globals.length = f then tryLocalVariants globals k r z failed equations plan else none
  match fromGlobals with
  | some p => some p
  | none =>
    (S.sort (comboLt z candidates) (enumerateCombinations candidates.length f)).findSome? fun pos =>
      fillPlanFromSelection k r z equations failed plan (selectedOf candidates pos)

/-- a plan with an error text, unless it was filled -/
def orError (plan : GlrcIlpRepairPlan) (message : String) :
    Option GlrcIlpRepairPlan → Bool × GlrcIlpRepairPlan
  | some p => (p.success, p)
  | none => (plan.success, { plan with errorMessage := message })

def glrcSolveRepairGlobalFirst (S : StdSort) (k r z : ℕ) (failed : List ℕ) :
    Bool × GlrcIlpRepairPlan :=
  withCandidates (fun equations candidates plan =>
    orError plan "global-first could not find decodable equation set"
      (tryGlobalFirstFallback S failed.length k r z failed equations candidates plan)) k r z failed

/-! ## Local-then-global policy -/

/-- `local_equations_by_failed_cover`; the comparator separates any two groups -/
def localEquationsByFailedCover (z : ℕ) (equations : List GlrcEquation) (failed : List ℕ) : List ℕ :=
  (List.range z).insertionSort fun a b =>
    let ca := equationFailedCoverCount equations failed a
    let cb := equationFailedCoverCount equations failed b
    if ca ≠ cb then ca > cb else a ≤ b

/-- append an entry that passes `p`, while fewer than `f` are selected -/
def pushStep (f : ℕ) (p : List ℕ → ℕ → Bool) (sel : List ℕ) (e : ℕ) : List ℕ :=
  if sel.length < f ∧ p sel e then sel ++ [e] else sel

def pushWhile (f : ℕ) (p : List ℕ → ℕ → Bool) (l selected : List ℕ) : List ℕ :=
  l.foldl (pushStep f p) selected

def buildLocalThenGlobalBaseSelection (f k r z : ℕ) (equations : List GlrcEquation)
    (failed : List ℕ) : List ℕ :=
  let globals := (List.range r).map (z + ·)
  let localOrder := localEquationsByFailedCover z equations failed
  let s1 := pushWhile f (fun _ e => k + (e - z) ∉ failed) globals []
  let s2 := pushWhile f (fun _ lg => k + r + lg ∉ failed) localOrder s1
  let s3 := pushWhile f (fun sel e => e ∉ sel) globals s2
  let s4 := pushWhile f (fun sel lg => lg ∉ sel) localOrder s3
  s4.take f

def glrcSolveRepairLocalThenGlobal (S : StdSort) (k r z : ℕ) (failed : List ℕ) :
    Bool × GlrcIlpRepairPlan :=
  let plan : GlrcIlpRepairPlan := { failedBlockIds := failed }
  if failed = [] then (false, { plan with errorMessage := "empty failure set" })
  else
    let equations := (glrcBuildRecoveryEquations k r z failed).1
    let candidates := (glrcBuildRecoveryEquations k r z failed).2
    let f := failed.length
    if f = 1 then
      orError plan "single-failure local equation not decodable"
        (fillPlanFromSelection k r z equations failed plan
          [localThenGlobalPrimaryEquationIndex (failed.getD 0 0) k r z])
    else
      let selected := buildLocalThenGlobalBaseSelection f k r z equations failed
      if selected.length < f then
        (plan.success, { plan with errorMessage := "not enough equations for failure count" })
      else
        orError plan "local-then-global could not find decodable equation set"
          ((tryLocalVariants selected k r z failed equations plan).or
            (tryGlobalFirstFallback S f k r z failed equations candidates plan))

/-! ## Dispatch -/

def glrcNormalizeEquationPolicy (policy : String) : String :=
  if policy = "local-then-global" ∨ policy = "ceph-style" ∨ policy = "ceph" then "local-then-global"
  else if policy = "local-first" then "local-first"
  else if policy = "global-first" ∨ policy = "hmbr-rule" ∨ policy = "rule-based" then "global-first"
  else if policy = "ilp-min-helper" ∨ policy = "ilp" ∨ policy = "" then "ilp-min-helper"
  else policy

def glrcSolveRepairPlan (S : StdSort) (k r z : ℕ) (failed : List ℕ) (equationPolicy : String) :
    Bool × GlrcIlpRepairPlan :=
  let normalized := glrcNormalizeEquationPolicy equationPolicy
  if normalized = "local-then-global" then glrcSolveRepairLocalThenGlobal S k r z failed
  else if normalized = "local-first" then glrcSolveRepairLocalFirst k r z failed
  else if normalized = "global-first" then glrcSolveRepairGlobalFirst S k r z failed
  else if normalized = "ilp-min-helper" then glrcSolveRepairIlp k r z failed
  else (false, { failedBlockIds := failed
                 errorMessage := "unknown GlrcEquationPolicy: " ++ equationPolicy })

end Mlrc
