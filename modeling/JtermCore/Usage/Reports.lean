import JtermCore.Usage.Decimal
import JtermCore.Workflows.Render
import Mathlib.Data.List.Dedup
import Mathlib.Data.List.Perm.Subperm

/-!
# Reported usage

The result records of a session are folded into one total.  A report that was
added before changes nothing, and a field stays unknown from the first report that
lacks it, or that it overflows with; so the total is that of the set of reports.
-/

namespace JtermCore.Usage

open Bytes ExecutionJournal Workflows

def maxReports : Nat := 64

/-- What `serde_json::Number` gives: an unsigned integer, and its text. -/
class Numbers (ν : Type) where
  asU64 : ν → Option UInt64
  toText : ν → Bytes

inductive Value (ν : Type) where
  | null
  | bool (value : Bool)
  | number (value : ν)
  | string (text : Bytes)
  | array (items : List (Value ν))
  | object (members : List (Bytes × Value ν))

inductive AgentUsageSource where
  | codexThreadTotal
  | claudeResult
  deriving DecidableEq

inductive AgentUsageScope where
  | providerThread
  | observedNativeRun
  deriving DecidableEq

structure AgentUsage where
  source : AgentUsageSource
  scope : AgentUsageScope
  providerSessionId : Option Bytes
  inputTokens : Option Nat
  cachedInputTokens : Option Nat
  cacheWriteInputTokens : Option Nat
  outputTokens : Option Nat
  reasoningOutputTokens : Option Nat
  totalTokens : Option Nat
  reportedCostUsd : Option Bytes
  reports : Nat
  isPartial : Bool
  reportIds : List Bytes
  deriving DecidableEq

section

variable {ν : Type}

def find (members : List (Bytes × Value ν)) (key : String) : Option (Value ν) :=
  (members.find? fun entry => entry.1 = ofAscii key).map Prod.snd

def Value.asObject : Value ν → Option (List (Bytes × Value ν))
  | .object members => some members
  | _ => none

def Value.asStr : Value ν → Option Bytes
  | .string text => some text
  | _ => none

def Value.asNumber : Value ν → Option ν
  | .number value => some value
  | _ => none

def Value.get (value : Value ν) (key : String) : Option (Value ν) :=
  value.asObject.bind fun members => find members key

variable [Numbers ν]

def unsigned (members : List (Bytes × Value ν)) (key : String) : Option Nat :=
  (((find members key).bind Value.asNumber).bind Numbers.asU64).map UInt64.toNat

def boundedIdentity [Libraries] (value : Value ν) : Option Bytes := value.asStr.bind fun text =>
    if text ≠ [] ∧ text.length ≤ 512 ∧ (validateReviewInput text).isOk = true then some text
    else none

def AgentUsage.hasMeasurement (usage : AgentUsage) : Bool :=
  usage.inputTokens.isSome || usage.outputTokens.isSome || usage.cachedInputTokens.isSome ||
    usage.cacheWriteInputTokens.isSome || usage.reasoningOutputTokens.isSome ||
    usage.totalTokens.isSome || usage.reportedCostUsd.isSome

def claudeUsage [Libraries] (value : Value ν) : AgentUsage :=
  let counts := (value.get "usage").bind Value.asObject
  let count := fun key => counts.bind fun members => unsigned members key
  { source := .claudeResult
    scope := .observedNativeRun
    providerSessionId := (value.get "session_id").bind boundedIdentity
    inputTokens := count "input_tokens"
    cachedInputTokens := count "cache_read_input_tokens"
    cacheWriteInputTokens := count "cache_creation_input_tokens"
    outputTokens := count "output_tokens"
    reasoningOutputTokens := none
    totalTokens := count "total_tokens"
    reportedCostUsd := (((value.get "total_cost_usd").bind Value.asNumber).bind fun number =>
      decimalAtoms (Numbers.toText number)).map formatAtoms
    reports := 1
    isPartial := false
    reportIds := ((value.get "uuid").bind boundedIdentity).toList }

def claudeResult [Libraries] (value : Value ν) : Option AgentUsage :=
  if (value.get "type").bind Value.asStr ≠ some (ofAscii "result") then none
  else if (claudeUsage value).hasMeasurement then some (claudeUsage value)
  else none

end

def AgentUsage.ensureReportId (usage : AgentUsage) (fallbackId : Bytes) : AgentUsage :=
  if usage.reportIds = [] then
    { usage with reportIds := [ofAscii "local-turn:" ++ fallbackId] }
  else usage

/-- `checked_add` of two known amounts of a type with so many values. -/
def add (values : Nat) : Option Nat → Option Nat → Option Nat
  | some first, some second => if first + second < values then some (first + second) else none
  | _, _ => none

def addCost : Option Bytes → Option Bytes → Option Bytes
  | some first, some second =>
    (add u128Values (decimalAtoms first) (decimalAtoms second)).map formatAtoms
  | _, _ => none

def u64Values : Nat := 2 ^ 64

def AgentUsage.accumulate (total next : AgentUsage) (fallbackId : Bytes) : AgentUsage × Bool :=
  if total.source ≠ .claudeResult ∨ next.source ≠ total.source ∨ total.scope ≠ next.scope ∨
      total.providerSessionId ≠ next.providerSessionId then
    ({ total with isPartial := true }, false)
  else
    let next := next.ensureReportId fallbackId
    if next.reportIds.any fun id => decide (id ∈ total.reportIds) then (total, false)
    else if maxReports ≤ total.reportIds.length then ({ total with isPartial := true }, false)
    else
      ({ total with
          inputTokens := add u64Values total.inputTokens next.inputTokens
          cachedInputTokens := add u64Values total.cachedInputTokens next.cachedInputTokens
          cacheWriteInputTokens :=
            add u64Values total.cacheWriteInputTokens next.cacheWriteInputTokens
          outputTokens := add u64Values total.outputTokens next.outputTokens
          reasoningOutputTokens :=
            add u64Values total.reasoningOutputTokens next.reasoningOutputTokens
          totalTokens := add u64Values total.totalTokens next.totalTokens
          reportedCostUsd := addCost total.reportedCostUsd next.reportedCostUsd
          reports := saturatingAdd total.reports 1
          isPartial := total.isPartial || next.isPartial
          reportIds := total.reportIds ++ next.reportIds }, true)

/-- The first report with the others folded into it, each with its turn. -/
def folded (first : AgentUsage) (rest : List (AgentUsage × Bytes)) : AgentUsage :=
  rest.foldl (fun total next => (total.accumulate next.1 next.2).1) first

def exactSum (values : Nat) (amounts : List (Option Nat)) : Option Nat :=
  if (amounts.all Option.isSome) = true ∧ (amounts.map fun amount => amount.getD 0).sum < values
  then some (amounts.map fun amount => amount.getD 0).sum
  else none

theorem exactSum_lt {values total : Nat} {amounts : List (Option Nat)}
    (known : exactSum values amounts = some total) : total < values := by
  rw [exactSum] at known
  split at known
  · rename_i fits
    cases known
    exact fits.2
  · cases known

theorem exactSum_perm {values : Nat} {amounts others : List (Option Nat)}
    (permuted : amounts.Perm others) : exactSum values amounts = exactSum values others := by
  have sums := (permuted.map fun amount => amount.getD 0).sum_eq
  have known : amounts.all Option.isSome = others.all Option.isSome := permuted.all_eq
  rw [exactSum, exactSum, sums, known]

theorem exactSum_singleton {values : Nat} {amount : Option Nat}
    (fits : ∀ value, amount = some value → value < values) : exactSum values [amount] = amount := by
  cases amount with
  | none => rfl
  | some value =>
    have small := fits value rfl
    simp [exactSum, small]

/-- One more amount: an overflow or a gap stays. -/
theorem exactSum_cons (values : Nat) (amount : Option Nat) (amounts : List (Option Nat)) :
    exactSum values (amount :: amounts) = add values (exactSum values amounts) amount := by
  cases amount with
  | none =>
    have gap : exactSum values (none :: amounts) = none := by simp [exactSum]
    rw [gap]
    cases exactSum values amounts <;> rfl
  | some value =>
    by_cases known : amounts.all Option.isSome = true
    · by_cases fits : (amounts.map fun amount => amount.getD 0).sum < values
      · have tail : exactSum values amounts =
            some (amounts.map fun amount => amount.getD 0).sum := by
          rw [exactSum, if_pos ⟨known, fits⟩]
        rw [tail, add, Nat.add_comm]
        simp only [exactSum, List.all_cons, Option.isSome_some, Bool.true_and, known, true_and,
          List.map_cons, Option.getD_some, List.sum_cons]
      · have tail : exactSum values amounts = none := by
          rw [exactSum, if_neg fun both => fits both.2]
        have large : exactSum values (some value :: amounts) = none := by
          rw [exactSum, if_neg]
          intro both
          rw [List.map_cons, List.sum_cons] at both
          omega
        rw [tail, large]
        rfl
    · have tail : exactSum values amounts = none := by
        rw [exactSum, if_neg fun both => known both.1]
      have gap : exactSum values (some value :: amounts) = none := by
        rw [exactSum, if_neg fun both => known (by simpa using both.1)]
      rw [tail, gap]
      rfl

inductive TokenField where
  | input
  | cachedInput
  | cacheWriteInput
  | output
  | reasoningOutput
  | total

def AgentUsage.tokens (usage : AgentUsage) : TokenField → Option Nat
  | .input => usage.inputTokens
  | .cachedInput => usage.cachedInputTokens
  | .cacheWriteInput => usage.cacheWriteInputTokens
  | .output => usage.outputTokens
  | .reasoningOutput => usage.reasoningOutputTokens
  | .total => usage.totalTokens

def AgentUsage.atoms (usage : AgentUsage) : Option Nat := usage.reportedCostUsd.bind decimalAtoms

structure Totals (session : Option Bytes) (reports : List AgentUsage) (total : AgentUsage) :
    Prop where
  source : total.source = .claudeResult
  scope : total.scope = .observedNativeRun
  session : total.providerSessionId = session
  tokens : ∀ field, total.tokens field = exactSum u64Values (reports.dedup.map (·.tokens field))
  cost : total.reportedCostUsd =
    (exactSum u128Values (reports.dedup.map AgentUsage.atoms)).map formatAtoms
  count : total.reports = reports.dedup.length
  entire : total.isPartial = false
  ids : total.reportIds.Perm (reports.dedup.flatMap AgentUsage.reportIds)

structure Reported (session : Option Bytes) (report : AgentUsage) : Prop where
  source : report.source = .claudeResult
  scope : report.scope = .observedNativeRun
  session : report.providerSessionId = session
  tokens : ∀ field value, report.tokens field = some value → value < u64Values
  cost : report.reportedCostUsd = report.atoms.map formatAtoms
  atoms : ∀ value, report.atoms = some value → value < u128Values
  count : report.reports = 1
  entire : report.isPartial = false
  ids : ∃ id, report.reportIds = [id]

theorem atoms_of_cost {cost amount : Option Nat}
    (fits : ∀ value, cost = some value → value < u128Values)
    (same : amount = (cost.map formatAtoms).bind decimalAtoms) : amount = cost := by
  cases cost with
  | none => exact same
  | some value => rw [same, Option.map_some, Option.bind_some,
      decimalAtoms_formatAtoms (fits value rfl)]

section

variable {ν : Type} [Numbers ν] [Libraries]

omit [Libraries] in
theorem unsigned_lt {members : List (Bytes × Value ν)} {key : String} {value : Nat}
    (read : unsigned members key = some value) : value < u64Values := by
  obtain ⟨number, -, rfl⟩ := Option.map_eq_some_iff.mp read
  exact number.toNat_lt

theorem claudeUsage_reported {value : Value ν} {fallback : Bytes} :
    Reported (claudeUsage value).providerSessionId
      ((claudeUsage value).ensureReportId fallback) := by
  have fits : ∀ atoms, (((value.get "total_cost_usd").bind Value.asNumber).bind fun number =>
      decimalAtoms (Numbers.toText number)) = some atoms → atoms < u128Values := by
    intro atoms read
    obtain ⟨number, -, exact⟩ := Option.bind_eq_some_iff.mp read
    exact (decimalAtoms_exact exact).1
  have counted : ∀ (key : String) (count : Nat),
      (((value.get "usage").bind Value.asObject).bind fun members => unsigned members key) =
        some count → count < u64Values := by
    intro key count read
    obtain ⟨members, -, exact⟩ := Option.bind_eq_some_iff.mp read
    exact unsigned_lt exact
  have tokens : ∀ field count, (claudeUsage value).tokens field = some count →
      count < u64Values := by
    intro field count read
    cases field with
    | reasoningOutput => cases read
    | _ => exact counted _ count read
  have same := atoms_of_cost fits (rfl : (claudeUsage value).atoms = _)
  rw [AgentUsage.ensureReportId]
  split
  · exact ⟨rfl, rfl, rfl, tokens, congrArg (Option.map formatAtoms) same.symm,
      fun count read => fits count (same.symm.trans read), rfl, rfl, _, rfl⟩
  · rename_i present
    refine ⟨rfl, rfl, rfl, tokens, congrArg (Option.map formatAtoms) same.symm,
      fun count read => fits count (same.symm.trans read), rfl, rfl, ?_⟩
    cases uuid : (value.get "uuid").bind boundedIdentity with
    | none => exact (present (congrArg Option.toList uuid)).elim
    | some id => exact ⟨id, congrArg Option.toList uuid⟩

def IsReport (ν : Type) [Numbers ν] (session : Option Bytes) (report : AgentUsage) : Prop :=
  ∃ (value : Value ν) (usage : AgentUsage) (fallback : Bytes),
    claudeResult value = some usage ∧ usage.providerSessionId = session ∧
      usage.ensureReportId fallback = report

theorem IsReport.reported {session : Option Bytes} {report : AgentUsage}
    (isReport : IsReport ν session report) : Reported session report := by
  obtain ⟨value, usage, fallback, read, rfl, rfl⟩ := isReport
  rw [claudeResult] at read
  split at read
  · cases read
  · split at read
    · cases read
      exact claudeUsage_reported
    · cases read

end

variable {session : Option Bytes} {seen all : List AgentUsage} {total next : AgentUsage}

structure Consistent (session : Option Bytes) (all : List AgentUsage) : Prop where
  reported : ∀ report ∈ all, Reported session report
  same : ∀ first ∈ all, ∀ second ∈ all, first.reportIds = second.reportIds → first = second
  few : (all.flatMap AgentUsage.reportIds).dedup.length ≤ maxReports

theorem Consistent.length_le (consistent : Consistent session all) (subset : seen ⊆ all) :
    seen.dedup.length ≤ maxReports ∧
      (seen.dedup.flatMap AgentUsage.reportIds).length = seen.dedup.length := by
  have single : ∀ report ∈ seen, ∃ id, report.reportIds = [id] := fun report member =>
    (consistent.reported report (subset member)).ids
  have length : (seen.dedup.flatMap AgentUsage.reportIds).length = seen.dedup.length := by
    rw [List.length_flatMap, List.map_congr_left (g := fun _ => 1)]
    · simp
    · intro report member
      obtain ⟨id, ids⟩ := single report (List.mem_dedup.mp member)
      rw [ids, List.length_singleton]
  have apart : (seen.dedup.flatMap AgentUsage.reportIds).Nodup := by
    rw [List.nodup_flatMap]
    constructor
    · intro report member
      obtain ⟨id, ids⟩ := single report (List.mem_dedup.mp member)
      rw [ids]
      exact List.nodup_singleton id
    · refine (List.nodup_dedup seen).imp_of_mem fun {first second} isFirst isSecond differ => ?_
      obtain ⟨id, ids⟩ := single first (List.mem_dedup.mp isFirst)
      obtain ⟨other, others⟩ := single second (List.mem_dedup.mp isSecond)
      show List.Disjoint _ _
      rw [ids, others, List.disjoint_singleton, List.mem_singleton]
      rintro rfl
      exact differ (consistent.same first (subset (List.mem_dedup.mp isFirst)) second
        (subset (List.mem_dedup.mp isSecond)) (ids.trans others.symm))
  refine ⟨?_, length⟩
  rw [← length]
  refine (apart.subperm fun id member => ?_).length_le.trans consistent.few
  obtain ⟨report, isReport, listed⟩ := List.mem_flatMap.mp member
  exact List.mem_dedup.mpr
    (List.mem_flatMap.mpr ⟨report, subset (List.mem_dedup.mp isReport), listed⟩)

theorem Totals.congr {others : List AgentUsage} (totals : Totals session seen total)
    (members : ∀ report, report ∈ seen ↔ report ∈ others) : Totals session others total := by
  have permuted : seen.dedup.Perm others.dedup := by
    rw [List.perm_ext_iff_of_nodup (List.nodup_dedup seen) (List.nodup_dedup others)]
    intro report
    rw [List.mem_dedup, List.mem_dedup, members]
  refine ⟨totals.source, totals.scope, totals.session, fun field => ?_, ?_, ?_, totals.entire,
    totals.ids.trans (permuted.flatMap_right _)⟩
  · rw [totals.tokens, exactSum_perm (permuted.map _)]
  · rw [totals.cost, exactSum_perm (permuted.map _)]
  · rw [totals.count, permuted.length_eq]

theorem Reported.totals (reported : Reported session next) : Totals session [next] next := by
  have single : [next].dedup = [next] := List.dedup_eq_self.mpr (List.nodup_singleton next)
  refine ⟨reported.source, reported.scope, reported.session, fun field => ?_, ?_,
    ?_, reported.entire, ?_⟩
  · rw [single, List.map_singleton, exactSum_singleton (reported.tokens field)]
  · rw [single, List.map_singleton, exactSum_singleton reported.atoms]
    exact reported.cost
  · rw [single, reported.count, List.length_singleton]
  · rw [single, List.flatMap_singleton]

theorem addCost_eq (first second : Option Bytes) :
    addCost first second =
      (add u128Values (first.bind decimalAtoms) (second.bind decimalAtoms)).map formatAtoms := by
  cases first with
  | none => rfl
  | some first =>
    cases second with
    | none =>
      change none = (add u128Values (decimalAtoms first) none).map formatAtoms
      cases decimalAtoms first <;> rfl
    | some second => rfl

/-- A step of the fold: a report that was seen is skipped, another one is added. -/
theorem Totals.accumulate (totals : Totals session seen total)
    (consistent : Consistent session all) (subset : seen ⊆ all) (member : next ∈ all)
    (fallback : Bytes) : Totals session (next :: seen) (total.accumulate next fallback).1 := by
  have reported := consistent.reported next member
  obtain ⟨id, ids⟩ := reported.ids
  have fixed : next.ensureReportId fallback = next := by
    rw [AgentUsage.ensureReportId, ids, if_neg (List.cons_ne_nil id [])]
  have gates : ¬ (total.source ≠ .claudeResult ∨ next.source ≠ total.source ∨
      total.scope ≠ next.scope ∨ total.providerSessionId ≠ next.providerSessionId) := by
    rw [totals.source, totals.scope, totals.session, reported.source, reported.scope,
      reported.session]
    simp
  have listed : (next.reportIds.any fun id => decide (id ∈ total.reportIds)) = true ↔
      next ∈ seen := by
    rw [ids, List.any_cons, List.any_nil, Bool.or_false, decide_eq_true_iff,
      totals.ids.mem_iff, List.mem_flatMap]
    constructor
    · rintro ⟨report, isReport, same⟩
      have earlier := List.mem_dedup.mp isReport
      obtain ⟨other, others⟩ := (consistent.reported report (subset earlier)).ids
      rw [others, List.mem_singleton] at same
      rw [consistent.same next member report (subset earlier) (by rw [ids, others, same])]
      exact earlier
    · intro earlier
      exact ⟨next, List.mem_dedup.mpr earlier, by rw [ids]; exact List.mem_singleton.mpr rfl⟩
  rw [AgentUsage.accumulate, if_neg gates]
  dsimp only
  rw [fixed]
  by_cases earlier : next ∈ seen
  · rw [if_pos (listed.mpr earlier)]
    refine totals.congr fun report => ?_
    rw [List.mem_cons]
    constructor
    · exact .inr
    · rintro (rfl | before)
      · exact earlier
      · exact before
  · have bounds := consistent.length_le (List.cons_subset.mpr ⟨member, subset⟩)
    have before := consistent.length_le subset
    rw [List.dedup_cons_of_notMem earlier, List.length_cons] at bounds
    have room : ¬ maxReports ≤ total.reportIds.length := by
      rw [totals.ids.length_eq, before.2]
      omega
    rw [if_neg fun found => earlier (listed.mp found), if_neg room]
    refine ⟨totals.source, totals.scope, totals.session, fun field => ?_, ?_, ?_, ?_, ?_⟩
    · rw [List.dedup_cons_of_notMem earlier, List.map_cons, exactSum_cons, ← totals.tokens]
      cases field <;> rfl
    · have known : total.atoms = exactSum u128Values (seen.dedup.map AgentUsage.atoms) :=
        atoms_of_cost (fun value => exactSum_lt) (congrArg (·.bind decimalAtoms) totals.cost)
      dsimp only
      rw [List.dedup_cons_of_notMem earlier, List.map_cons, exactSum_cons, addCost_eq, ← known]
      rfl
    · have small : maxReports < usizeValues := by decide
      dsimp only
      rw [List.dedup_cons_of_notMem earlier, List.length_cons, totals.count, saturatingAdd]
      omega
    · dsimp only
      rw [totals.entire, reported.entire]
      rfl
    · rw [List.dedup_cons_of_notMem earlier, List.flatMap_cons]
      exact (totals.ids.append_right _).trans List.perm_append_comm

theorem totals_folded (consistent : Consistent session all) (totals : Totals session seen total)
    (subset : seen ⊆ all) (rest : List (AgentUsage × Bytes))
    (members : ∀ next ∈ rest, next.1 ∈ all) :
    Totals session ((rest.map Prod.fst).reverse ++ seen) (folded total rest) := by
  induction rest generalizing total seen with
  | nil => exact totals
  | cons next rest ih =>
    have member := members next List.mem_cons_self
    have step := totals.accumulate consistent subset member next.2
    have final := ih step (List.cons_subset.mpr ⟨member, subset⟩)
      fun other later => members other (List.mem_cons_of_mem _ later)
    rw [List.map_cons, List.reverse_cons, List.append_assoc]
    exact final

theorem totals_of_consistent {first : AgentUsage} {rest : List (AgentUsage × Bytes)}
    (consistent : Consistent session (first :: rest.map Prod.fst)) :
    Totals session (first :: rest.map Prod.fst) (folded first rest) := by
  have start := (consistent.reported first List.mem_cons_self).totals
  have run := totals_folded consistent start (List.cons_subset.mpr
    ⟨List.mem_cons_self, List.nil_subset _⟩) rest
    fun next member => List.mem_cons_of_mem _ (List.mem_map_of_mem member)
  refine run.congr fun report => ?_
  rw [List.mem_append, List.mem_reverse, List.mem_singleton, List.mem_cons, or_comm]

/-- Two totals of one set of reports differ in the order of the identifiers only. -/
theorem Totals.unique {other : AgentUsage} (totals : Totals session all total)
    (others : Totals session all other) :
    { total with reportIds := [] } = { other with reportIds := [] } ∧
      total.reportIds.Perm other.reportIds := by
  refine ⟨?_, totals.ids.trans others.ids.symm⟩
  have fields : ∀ field, total.tokens field = other.tokens field := fun field =>
    (totals.tokens field).trans (others.tokens field).symm
  obtain ⟨input, cached, written, output, reasoning, sum⟩ :=
    (⟨fields .input, fields .cachedInput, fields .cacheWriteInput, fields .output,
      fields .reasoningOutput, fields .total⟩ : _ ∧ _ ∧ _ ∧ _ ∧ _ ∧ _)
  simp only [AgentUsage.tokens] at input cached written output reasoning sum
  rw [AgentUsage.mk.injEq]
  exact ⟨totals.source.trans others.source.symm, totals.scope.trans others.scope.symm,
    totals.session.trans others.session.symm, input, cached, written, output, reasoning, sum,
    totals.cost.trans others.cost.symm, totals.count.trans others.count.symm,
    totals.entire.trans others.entire.symm, rfl⟩

/-- Reported usage is summed exactly and once. -/
theorem usage_summed (ν : Type) [Numbers ν] [Libraries] (session : Option Bytes)
    (first : AgentUsage) (rest : List (AgentUsage × Bytes))
    (reports : ∀ report ∈ first :: rest.map Prod.fst, IsReport ν session report)
    (same : ∀ one ∈ first :: rest.map Prod.fst, ∀ other ∈ first :: rest.map Prod.fst,
      one.reportIds = other.reportIds → one = other)
    (few : ((first :: rest.map Prod.fst).flatMap AgentUsage.reportIds).dedup.length ≤
      maxReports) :
    (∀ text value, decimalAtoms text = some value →
      ∃ whole fraction exponent, Spells text whole fraction exponent ∧
        literalValue whole fraction exponent = value / (10 : ℚ) ^ 18) ∧
    (∀ value < 2 ^ 128, decimalAtoms (formatAtoms value) = some value) ∧
    Totals session (first :: rest.map Prod.fst) (folded first rest) ∧
    ∀ other others, (∀ report, report ∈ other :: others.map Prod.fst ↔
        report ∈ first :: rest.map Prod.fst) →
      { folded other others with reportIds := [] } = { folded first rest with reportIds := [] } ∧
        (folded other others).reportIds.Perm (folded first rest).reportIds := by
  have consistent : Consistent session (first :: rest.map Prod.fst) :=
    ⟨fun report member => (reports report member).reported, same, few⟩
  have totals := totals_of_consistent consistent
  refine ⟨fun text value read => (decimalAtoms_exact read).2,
    fun value fits => decimalAtoms_formatAtoms fits, totals, fun other others members => ?_⟩
  have subset : ∀ {report}, report ∈ other :: others.map Prod.fst →
      report ∈ first :: rest.map Prod.fst := fun member => (members _).mp member
  have start := (consistent.reported other (subset List.mem_cons_self)).totals
  have run := totals_folded consistent start (List.cons_subset.mpr
    ⟨subset List.mem_cons_self, List.nil_subset _⟩) others
    fun next member => subset (List.mem_cons_of_mem _ (List.mem_map_of_mem member))
  refine (run.congr fun report => ?_).unique totals
  rw [← members, List.mem_append, List.mem_reverse, List.mem_singleton, List.mem_cons, or_comm]

/-- Numbers that are unsigned integers. -/
instance integerNumbers : Numbers UInt64 where
  asU64 := some
  toText number := decimalText number.toNat

def fiveTokens : Value UInt64 :=
  .object [(ofAscii "type", .string (ofAscii "result")),
    (ofAscii "usage", .object [(ofAscii "input_tokens", .number 5)])]

def fiveReported (turn : Bytes) : AgentUsage where
  source := .claudeResult
  scope := .observedNativeRun
  providerSessionId := none
  inputTokens := some 5
  cachedInputTokens := none
  cacheWriteInputTokens := none
  outputTokens := none
  reasoningOutputTokens := none
  totalTokens := none
  reportedCostUsd := none
  reports := 1
  isPartial := false
  reportIds := [ofAscii "local-turn:" ++ turn]

theorem usage_summed_repeated :
    (folded (fiveReported [0x31]) [(fiveReported [0x32], []), (fiveReported [0x31], [])]).tokens
      .input = some 10 := by
  let libraries : Libraries := ⟨fun _ => none, fun _ => true, fun _ => false⟩
  have results : ∀ turn, IsReport UInt64 none (fiveReported turn) := by
    intro turn
    refine ⟨fiveTokens, claudeUsage fiveTokens, turn, ?_, ?_, ?_⟩
    · rfl
    · rfl
    · rfl
  have reports : ∀ report ∈ fiveReported [0x31] ::
      [(fiveReported [0x32], []), (fiveReported [0x31], ([] : Bytes))].map Prod.fst,
      IsReport UInt64 none report := by
    intro report member
    simp only [List.map_cons, List.map_nil, List.mem_cons, List.not_mem_nil, or_false] at member
    rcases member with rfl | rfl | rfl
    · exact results _
    · exact results _
    · exact results _
  have totals := (usage_summed UInt64 none (fiveReported [0x31])
    [(fiveReported [0x32], []), (fiveReported [0x31], [])] reports (by decide) (by decide)).2.2.1
  exact (totals.tokens .input).trans (by decide)

end JtermCore.Usage
