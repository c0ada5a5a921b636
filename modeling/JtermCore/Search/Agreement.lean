import JtermCore.Search.Workspace
import JtermCore.Tasks.Ownership

/-!
# The two searches agree

A query that both searches accept, and that asks only for what both know, finds
the same tasks in the workspace as in the dashboard.  The searches differ in two
places: the workspace compares the branch as it is and not as it is displayed,
and takes a task for running only if one of its processes is known to live.
-/

namespace JtermCore.Search

open ExecutionJournal Result Tasks Utf8

theorem capital_cases (char : Char) :
    (∃ index < 26, char = Char.ofNat (65 + index)) ∨ toAsciiLowercase char = char := by
  by_cases capital : 'A' ≤ char ∧ char ≤ 'Z'
  · left
    have least : 65 ≤ char.toNat := capital.1
    have most : char.toNat ≤ 90 := capital.2
    refine ⟨char.toNat - 65, by omega, ?_⟩
    rw [Nat.add_sub_cancel' least, Char.ofNat_toNat]
  · right
    rw [toAsciiLowercase, if_neg capital]

theorem toAsciiLowercase_idem (char : Char) :
    toAsciiLowercase (toAsciiLowercase char) = toAsciiLowercase char := by
  rcases capital_cases char with ⟨index, small, rfl⟩ | same
  · revert index
    decide
  · rw [same, same]

theorem isWhitespace_toAsciiLowercase (char : Char) :
    isWhitespace (toAsciiLowercase char) = isWhitespace char := by
  rcases capital_cases char with ⟨index, small, rfl⟩ | same
  · revert index
    decide
  · rw [same]

/-- What `normalize` makes of a character. -/
def normalChar (char : Char) : Char :=
  if toAsciiLowercase char = '_' ∨ toAsciiLowercase char = ' ' then '-' else toAsciiLowercase char

theorem normalize_eq (value : List Char) :
    normalize value = (trimChars value).map normalChar := by
  rw [normalize, List.map_map]
  rfl

theorem isWhitespace_normalChar {char : Char} (shown : isWhitespace char = false) :
    isWhitespace (normalChar char) = false := by
  rw [normalChar]
  split
  · decide
  · rw [isWhitespace_toAsciiLowercase, shown]

theorem normalize_trimmed (value : List Char) : trimChars (normalize value) = normalize value := by
  rw [normalize_eq]
  apply trimChars_eq_self
  · intro char same
    rw [List.head?_map] at same
    obtain ⟨source, found, rfl⟩ := Option.map_eq_some_iff.mp same
    exact isWhitespace_normalChar (head?_trimChars value source found)
  · intro char same
    rw [List.getLast?_map] at same
    obtain ⟨source, found, rfl⟩ := Option.map_eq_some_iff.mp same
    exact isWhitespace_normalChar (getLast?_trimChars value source found)

theorem normalize_lower (value : List Char) :
    (normalize value).map toAsciiLowercase = normalize value := by
  rw [normalize_eq, List.map_map]
  apply List.map_congr_left
  intro char _
  rw [Function.comp_apply, normalChar]
  split
  · decide
  · rw [toAsciiLowercase_idem]

theorem underscore_not_mem_normalize (value : List Char) : '_' ∉ normalize value := by
  rw [normalize_eq, List.mem_map]
  rintro ⟨char, -, same⟩
  rw [normalChar] at same
  split at same
  · exact absurd same (by decide)
  · rename_i plain
    exact plain (.inl same)

theorem named_eq_some {α : Type} {table : List (String × α)} {name : List Char} {value : α}
    (found : named table name = some value) :
    ∃ entry ∈ table, entry.1.toList = name ∧ entry.2 = value := by
  obtain ⟨entry, located, same⟩ := Option.map_eq_some_iff.mp found
  have name_ := List.find?_some located
  exact ⟨entry, List.mem_of_find?_eq_some located, by simpa using name_, same⟩

def DashboardField.unified : DashboardField → Option WorkspaceField
  | .title => some .title
  | .branch => some .branch
  | .provider => some .provider
  | .status => some .status
  | .runtime => some .runtime
  | .validation => some .validation
  | .attention => some .attention
  | .is => some .is
  | _ => none

def DashboardField.isShared (field : DashboardField) : Bool := field.unified.isSome

/-- A field that both searches know alike. -/
def WorkspaceField.isShared : WorkspaceField → Bool
  | .title | .branch | .provider | .status | .runtime | .validation | .attention | .is => true
  | _ => false

theorem parse_unified {name : List Char} {field : DashboardField} {unified : WorkspaceField}
    (dashboard : DashboardField.parse name = some field)
    (workspace : WorkspaceField.parse name = some unified) (shared : field.isShared = true) :
    field.unified = some unified := by
  obtain ⟨entry, member, name_, rfl⟩ := named_eq_some dashboard
  obtain ⟨other, otherMember, otherName, rfl⟩ := named_eq_some workspace
  rw [← name_] at otherName
  clear dashboard workspace name_
  revert entry other
  decide

section

variable [SearchLibraries]

/-- Two terms that ask for the same in both searches. -/
structure SameTerm (term : DashboardTerm) (other : WorkspaceTerm) : Prop where
  field : term.field.unified = some other.field
  values : term.values = other.values
  negated : term.negated = other.negated
  accepted : ∀ value ∈ term.values, term.field.accepts value = true
  normal : term.field.isEnumerated = true → ∀ value ∈ term.values, ∃ entered,
    value = normalize entered

omit [SearchLibraries] in
theorem tokenizeLoop_mono {few many : Nat} (le : few ≤ many) {text : List Char}
    {tokens read : List Token} (reads : tokenizeLoop few text tokens = .ok read) :
    tokenizeLoop many text tokens = .ok read := by
  fun_induction tokenizeLoop few text tokens with
  | case1 tokens =>
    rw [tokenizeLoop_nil]
    exact reads
  | case2 tokens character rest white ih =>
    rw [tokenizeLoop_white white]
    exact ih reads
  | case3 => cases reads
  | case4 tokens character rest shown longer added ih =>
    obtain ⟨closed, filled, short, rfl⟩ := addToken_eq_ok.mp added
    have adds := @addToken_eq_ok many character (readToken rest (.start character)).1 tokens _ |>.mpr
      ⟨closed, filled, Nat.le_trans short le, rfl⟩
    rw [tokenizeLoop_cons, if_neg shown, adds]
    exact ih reads

variable {token : Token}

theorem constrain_eq_ok {Field : Type} {language : Language Field}
    {term : Constraint Field} (constrained : constrain language token = .ok term) :
    fieldOf language token = .ok (term.field, term.value) ∧
      term.values = (if language.alternatives term.field then
          (term.value.splitOn ',').map normalize
        else [SearchLibraries.lowercase term.value]) ∧
      (∀ value ∈ term.values, language.accepts term.field value = true) ∧
      term.negated = token.negated := by
  simp only [constrain, bind_eq_ok] at constrained
  obtain ⟨⟨field, value⟩, found, constrained⟩ := constrained
  simp only [reject_eq_ok, pure_eq_ok] at constrained
  obtain ⟨-, accepted, rfl⟩ := constrained
  refine ⟨found, rfl, fun value member => ?_, rfl⟩
  simp only [List.any_eq_true, not_exists, not_and, Bool.or_eq_true, Bool.not_eq_true',
    not_or] at accepted
  simpa using (accepted value member).2

variable {value : List Char}

omit [SearchLibraries] in
theorem fieldOf_named {Field : Type} {language : Language Field} {field : Field}
    (found : fieldOf language token = .ok (field, value))
    (other : field ≠ language.text) : ∃ name, splitOnceColon token.value = some (name, value) ∧
      language.parseField name = some field := by
  have text (whole : List Char) :
      (.ok (language.text, whole) : Except String (Field × List Char)) ≠ .ok (field, value) := by
    intro same
    exact other (congrArg Prod.fst (Except.ok.inj same)).symm
  rw [fieldOf] at found
  split at found
  · exact absurd found (text _)
  · split at found
    · rename_i name entered splits
      split at found
      · rename_i known parsed
        obtain ⟨rfl, rfl⟩ := Prod.mk.inj (Except.ok.inj found)
        exact ⟨name, splits, parsed⟩
      · split at found
        · exact absurd found (text _)
        · cases found
    · exact absurd found (text _)

omit [SearchLibraries] in
theorem alternatives_unified {field : DashboardField} {other : WorkspaceField}
    (unified : field.unified = some other) :
    dashboardLanguage.alternatives field = workspaceLanguage.alternatives other := by
  cases field <;> cases unified <;> rfl

theorem sameTerm_of_constrain {first : Constraint DashboardField}
    {second : Constraint WorkspaceField} (firstOk : constrain dashboardLanguage token = .ok first)
    (secondOk : constrain workspaceLanguage token = .ok second)
    (firstShared : first.field.isShared = true) (secondShared : second.field.isShared = true) :
    SameTerm (.ofConstraint first) (.ofConstraint second) := by
  obtain ⟨found, values, accepted, negated⟩ := constrain_eq_ok firstOk
  obtain ⟨otherFound, otherValues, -, otherNegated⟩ := constrain_eq_ok secondOk
  have named_ : first.field ≠ .text := by
    intro text
    rw [text] at firstShared
    cases firstShared
  have otherNamed : second.field ≠ .text := by
    intro text
    rw [text] at secondShared
    cases secondShared
  obtain ⟨name, splits, parsed⟩ := fieldOf_named found named_
  obtain ⟨otherName, otherSplits, otherParsed⟩ := fieldOf_named otherFound otherNamed
  rw [splits] at otherSplits
  obtain ⟨rfl, sameValue⟩ := Prod.mk.inj (Option.some.inj otherSplits)
  have unified := parse_unified parsed otherParsed firstShared
  refine ⟨unified, ?_, negated.trans otherNegated.symm, accepted, ?_⟩
  · have same : first.values = second.values := by
      rw [values, otherValues, sameValue, alternatives_unified unified]
    exact same
  · intro enumerated value member
    have alternatives : dashboardLanguage.alternatives first.field = true := enumerated
    have entered : value ∈ first.values := member
    rw [values, if_pos alternatives, List.mem_map] at entered
    obtain ⟨part, -, same⟩ := entered
    exact ⟨part, same.symm⟩

theorem sameTerms_of_constrainAll {tokens : List Token} {terms : List (Constraint DashboardField)}
    {others : List (Constraint WorkspaceField)}
    (termsOk : constrainAll dashboardLanguage tokens = .ok terms)
    (othersOk : constrainAll workspaceLanguage tokens = .ok others)
    (shared : ∀ term ∈ terms, term.field.isShared = true)
    (othersShared : ∀ term ∈ others, term.field.isShared = true) :
    List.Forall₂ SameTerm (terms.map .ofConstraint) (others.map .ofConstraint) := by
  induction tokens generalizing terms others with
  | nil =>
    cases termsOk
    cases othersOk
    exact .nil
  | cons token tokens ih =>
    simp only [constrainAll, bind_eq_ok, pure_eq_ok] at termsOk othersOk
    obtain ⟨term, termOk, terms, termsOk, rfl⟩ := termsOk
    obtain ⟨other, otherOk, others, othersOk, rfl⟩ := othersOk
    rw [List.forall_mem_cons] at shared othersShared
    exact .cons (sameTerm_of_constrain termOk otherOk shared.1 othersShared.1)
      (ih termsOk othersOk shared.2 othersShared.2)

variable {nspace : List Char} {task : AgentTask} {activity : DashboardActivity}
  {row : WorkspaceRow}

omit [SearchLibraries] in
theorem provider_agrees {value entered : List Char} (normal : value = normalize entered)
    (accepted : (provider value).isSome = true) (name : AgentProvider) :
    (decide ((displayName name).toList.map toAsciiLowercase = value) ||
      (decide (value = "open-code".toList) &&
        decide ((displayName name).toList.map toAsciiLowercase = "opencode".toList))) =
      decide (provider value = some name) := by
  have known : value ∈ ["open-code", "codex", "claude", "opencode", "kimi"].map String.toList := by
    by_cases hyphen : value = "open-code".toList
    · rw [hyphen]
      exact List.mem_cons_self
    · rw [provider, if_neg hyphen, fromConfigValue, normal, normalize_trimmed, normalize_lower,
        ← normal] at accepted
      obtain ⟨kind, found⟩ := Option.isSome_iff_exists.mp accepted
      obtain ⟨entry, member, rfl, -⟩ := named_eq_some found
      have plain : '_' ∉ entry.1.toList := normal ▸ underscore_not_mem_normalize entered
      clear found accepted normal hyphen
      revert entry
      decide
  clear accepted normal
  revert value
  cases name <;> decide

omit [SearchLibraries] in
theorem runtime_agrees (accepted : (Search.runtime value).isSome = true) :
    runtimeState value = none := by
  obtain ⟨kind, found⟩ := Option.isSome_iff_exists.mp accepted
  obtain ⟨entry, member, rfl, -⟩ := named_eq_some found
  clear found accepted
  revert entry
  decide

omit [SearchLibraries] in
theorem attention_agrees {kind : DashboardAttentionKind}
    (found : Search.attention value = some kind) :
    value ≠ "none".toList ∧ workspaceAttention value = some (.fromDashboard kind) := by
  have member := List.mem_of_find?_eq_some found
  have named_ := List.find?_some found
  obtain rfl : kind.queryValue.toList = value := by simpa using named_
  cases kind <;> decide

omit [SearchLibraries] in
theorem fromDashboard_inj {first second : DashboardAttentionKind}
    (same : WorkspaceAttention.fromDashboard first = .fromDashboard second) : first = second := by
  cases first <;> cases second <;> first | rfl | cases same

theorem fromTask_eq_ok (made : WorkspaceRow.fromTask nspace task activity = .ok row) :
    row.title = (DashboardRow.fromTask task activity).title ∧
      row.provider = (displayName task.provider).toList ∧
      row.archived = decide (task.status = .archived) ∧
      row.runtime = (if activity.isLive then .running else .idle) ∧
      row.facts = .fromTask task activity := by
  simp only [WorkspaceRow.fromTask, bind_eq_ok, pure_eq_ok] at made
  obtain ⟨id, -, rfl⟩ := made
  exact ⟨rfl, rfl, rfl, rfl, rfl⟩

omit [SearchLibraries] in
theorem attentionKind_archived (validationStatus : TaskValidationStatus) (needs : Bool) :
    attentionKind .archived validationStatus needs = none := by simp [attentionKind]

theorem attention_fromTask (made : WorkspaceRow.fromTask nspace task activity = .ok row) :
    row.attention = (DashboardRow.fromTask task activity).attentionKind.map .fromDashboard := by
  obtain ⟨-, -, archived, runtime, facts⟩ := fromTask_eq_ok made
  have quiet : row.runtime ≠ .conflict := by
    rw [runtime]
    split <;> exact fun same => by cases same
  have certain : row.facts.interrupted = false := by
    rw [facts]
    rfl
  rw [WorkspaceRow.attention, archived, certain, if_neg quiet, facts]
  by_cases hidden : task.status = .archived
  · have queue : (DashboardRow.fromTask task activity).attentionKind = none := by
      change attentionKind task.status _ _ = none
      rw [hidden]
      exact attentionKind_archived _ _
    rw [if_pos (decide_eq_true hidden), queue]
    rfl
  · rw [if_neg (by simpa using hidden), if_neg Bool.false_ne_true]
    rfl

omit [SearchLibraries] in
theorem attentionKind_isSome (status : TaskStatus) (validationStatus : TaskValidationStatus) :
    (attentionKind status validationStatus (status ≠ .archived &&
      if validationStatus = .running then false
      else statusNeedsAttention status || validationNeedsAttention validationStatus)).isSome =
      (status ≠ .archived && if validationStatus = .running then false
        else statusNeedsAttention status || validationNeedsAttention validationStatus) := by
  cases status <;> cases validationStatus <;> rfl

theorem queue_isSome :
    (DashboardRow.fromTask task activity).attentionKind.isSome =
      (DashboardRow.fromTask task activity).needsAttention :=
  attentionKind_isSome task.status task.validation.status

def RunsLive (task : AgentTask) (activity : DashboardActivity) : Prop :=
  (DashboardRow.fromTask task activity).isRunning = activity.isLive

instance (task : AgentTask) (activity : DashboardActivity) :
    Decidable (RunsLive task activity) :=
  inferInstanceAs (Decidable (_ = _))

section

variable (made : WorkspaceRow.fromTask nspace task activity = .ok row)

include made

theorem is_agrees (accepted : DashboardField.is.accepts value = true)
    (running : value = "running".toList → RunsLive task activity) :
    row.is value = (DashboardRow.fromTask task activity).is value := by
  have attention : row.attention.isSome = (DashboardRow.fromTask task activity).needsAttention := by
    rw [attention_fromTask made, Option.isSome_map, queue_isSome]
  obtain ⟨-, -, archived, runtime, facts⟩ := fromTask_eq_ok made
  obtain ⟨name, member, same⟩ := List.any_eq_true.mp accepted
  obtain rfl := of_decide_eq_true same
  have live : row.runtime.isLive = activity.isLive := by
    rw [runtime]
    split
    · rename_i alive
      rw [alive]
      rfl
    · rename_i dead
      rw [Bool.eq_false_iff.mpr dead]
      rfl
  have started : row.runtime ≠ .starting := by
    rw [runtime]
    split <;> exact fun same => by cases same
  have exited : row.runtime ≠ .exited := by
    rw [runtime]
    split <;> exact fun same => by cases same
  have finished : row.isFinished =
      (decide (task.status = .completed) || decide (task.status = .failed) ||
        decide (task.status = .cancelled)) := by
    simp [WorkspaceRow.isFinished, facts, exited, WorkspaceFacts.fromTask]
  simp only [DashboardField.isValues, List.mem_cons, List.not_mem_nil, or_false] at member
  simp only [WorkspaceRow.is, DashboardRow.is]
  rcases member with rfl | rfl | rfl | rfl | rfl | rfl | rfl | rfl | rfl
  · have both : ((DashboardRow.fromTask task activity).needsAttention &&
        decide ((DashboardRow.fromTask task activity).status ≠ .archived)) =
        (DashboardRow.fromTask task activity).needsAttention := by
      have twice (shown needs : Bool) : (shown && needs && shown) = (shown && needs) := by
        cases shown <;> cases needs <;> rfl
      exact twice (decide (task.status ≠ .archived)) (needsAttention task)
    rw [attention, both]
    simp only [named_cons]
    simp
  · have alive := running rfl
    rw [RunsLive] at alive
    simp only [named_cons]
    simp [live, alive]
  · simp only [named_cons]
    simp [facts, WorkspaceFacts.fromTask, DashboardRow.fromTask]
  · simp only [named_cons]
    simp [facts, WorkspaceFacts.fromTask, DashboardRow.fromTask]
  · simp only [named_cons]
    simp [finished, DashboardRow.fromTask]
  · simp only [named_cons]
    simp [archived, DashboardRow.fromTask]
  · simp only [named_cons]
    simp [facts, started, WorkspaceFacts.fromTask, DashboardRow.fromTask]
  · simp only [named_cons]
    simp [facts, WorkspaceFacts.fromTask, DashboardRow.fromTask]
  · simp only [named_cons]
    simp [facts, WorkspaceFacts.fromTask, DashboardRow.fromTask]

theorem has_agrees
    {term : DashboardTerm} {other : WorkspaceTerm} (same : SameTerm term other)
    (branch : term.field = .branch →
      safeInlineDisplay task.branch dashboardTitleMaxBytes = task.branch)
    (running : term.field = .is → "running".toList ∈ term.values → RunsLive task activity)
    (member : value ∈ term.values) :
    row.has (.new row) none other value =
      (DashboardRow.fromTask task activity).has (some (.new (.fromTask task activity)))
        term.field value := by
  have queue := attention_fromTask made
  obtain ⟨title, provider, archived, runtime, facts⟩ := fromTask_eq_ok made
  have accepted := same.accepted value member
  have unified := same.field
  cases field : term.field with
  | title =>
    rw [field] at unified
    rw [WorkspaceRow.has, ← Option.some.inj unified]
    simp only [WorkspaceRowText.new, title]
    rfl
  | branch =>
    rw [field] at unified
    have shown := branch field
    rw [WorkspaceRow.has, ← Option.some.inj unified]
    simp only [WorkspaceRowText.new, facts, WorkspaceFacts.fromTask, Option.getD_some,
      DashboardRow.has, Option.any_some, DashboardRowText.new, DashboardRow.fromTask, shown]
  | provider =>
    rw [field] at unified accepted
    obtain ⟨entered, normal⟩ := same.normal (by rw [field]; rfl) value member
    have lower : SearchLibraries.lowercase (displayName task.provider).toList =
        (displayName task.provider).toList.map toAsciiLowercase :=
      SearchLibraries.lowercase_ascii _ (by
        have ascii : (displayName task.provider).toList.all (fun char => char.toNat < 0x80) =
            true := by cases task.provider <;> decide
        exact fun char inside => of_decide_eq_true (List.all_eq_true.mp ascii char inside))
    rw [WorkspaceRow.has, ← Option.some.inj unified]
    simp only [WorkspaceRowText.new, provider, lower]
    exact provider_agrees normal accepted task.provider
  | status =>
    rw [field] at unified
    rw [WorkspaceRow.has, ← Option.some.inj unified]
    simp only [WorkspaceRow.matchesStatus, facts, WorkspaceFacts.fromTask]
    rfl
  | runtime =>
    rw [field] at unified accepted
    rw [WorkspaceRow.has, ← Option.some.inj unified]
    simp only [runtime_agrees accepted, facts, WorkspaceFacts.fromTask, Option.isSome_some,
      Bool.true_and]
    simp [DashboardRow.has, DashboardRow.fromTask]
  | validation =>
    rw [field] at unified
    rw [WorkspaceRow.has, ← Option.some.inj unified]
    simp only [facts, WorkspaceFacts.fromTask, Option.isSome_some, Bool.true_and]
    rfl
  | attention =>
    rw [field] at unified accepted
    obtain ⟨kind, found⟩ := Option.isSome_iff_exists.mp accepted
    obtain ⟨other_, unifies⟩ := attention_agrees found
    rw [WorkspaceRow.has, ← Option.some.inj unified]
    simp only [if_neg other_, unifies, queue, DashboardRow.has, found, Option.any_some]
    apply decide_eq_decide.mpr
    rw [Option.map_eq_some_iff]
    constructor
    · rintro ⟨queued, stands, same⟩
      rw [stands, fromDashboard_inj same]
    · intro stands
      exact ⟨kind, stands, rfl⟩
  | is =>
    rw [field] at unified accepted
    rw [WorkspaceRow.has, ← Option.some.inj unified]
    exact is_agrees made accepted fun same => running field (same ▸ member)
  | text | project | id =>
    rw [field] at unified
    cases unified

theorem meets_agrees
    {term : DashboardTerm} {other : WorkspaceTerm} (same : SameTerm term other)
    (branch : term.field = .branch →
      safeInlineDisplay task.branch dashboardTitleMaxBytes = task.branch)
    (running : term.field = .is → "running".toList ∈ term.values → RunsLive task activity) :
    row.meets (.new row) none other =
      (DashboardRow.fromTask task activity).meets (some (.new (.fromTask task activity))) term := by
  rw [WorkspaceRow.meets, DashboardRow.meets, ← same.values, ← same.negated]
  congr 1
  rw [Bool.eq_iff_iff, List.any_eq_true, List.any_eq_true]
  refine exists_congr fun value => and_congr_right fun member => ?_
  rw [has_agrees made same branch running member]

theorem all_agrees {terms : List DashboardTerm} {others : List WorkspaceTerm}
    (same : List.Forall₂ SameTerm terms others)
    (branch : ∀ term ∈ terms, term.field = .branch →
      safeInlineDisplay task.branch dashboardTitleMaxBytes = task.branch)
    (running : ∀ term ∈ terms, term.field = .is → "running".toList ∈ term.values →
      RunsLive task activity) :
    others.all (row.meets (.new row) none) =
      terms.all ((DashboardRow.fromTask task activity).meets
        (some (.new (.fromTask task activity)))) := by
  induction same with
  | nil => rfl
  | cons first _ ih =>
    rw [List.forall_mem_cons] at branch running
    rw [List.all_cons, List.all_cons, meets_agrees made first branch.1 running.1,
      ih branch.2 running.2]

end

/-- A query that both searches accept, and that asks only for what both know,
finds the same tasks in both; except that the workspace compares the branch as
it is and not as it is displayed, and takes a task for running only if one of its
processes is known to live. -/
theorem searches_agree {text : List Char} {dashboard : DashboardQuery}
    {workspace : WorkspaceQuery} (dashboardOk : DashboardQuery.parse text = .ok dashboard)
    (workspaceOk : WorkspaceQuery.parse text = .ok workspace)
    (dashboardShared : ∀ term ∈ dashboard.terms, term.field.isShared = true)
    (workspaceShared : ∀ term ∈ workspace.terms, term.field.isShared = true)
    (made : WorkspaceRow.fromTask nspace task activity = .ok row)
    (branch : (∃ term ∈ dashboard.terms, term.field = .branch) →
      safeInlineDisplay task.branch dashboardTitleMaxBytes = task.branch)
    (running : (∃ term ∈ dashboard.terms, term.field = .is ∧ "running".toList ∈ term.values) →
      RunsLive task activity) :
    workspace.matches row = dashboard.matches (.fromTask task activity) := by
  obtain ⟨terms, termsOk, rfl⟩ := map_eq_ok.mp dashboardOk
  obtain ⟨others, othersOk, rfl⟩ := map_eq_ok.mp workspaceOk
  obtain ⟨-, -, tokens, tokenized, constrained⟩ := parseTerms_eq_ok.mp termsOk
  obtain ⟨-, -, otherTokens, otherTokenized, otherConstrained⟩ := parseTerms_eq_ok.mp othersOk
  have limits : dashboardLanguage.maxTerms ≤ workspaceLanguage.maxTerms := by decide
  have same : tokens = otherTokens := by
    have reads := tokenizeLoop_mono limits tokenized
    exact Except.ok.inj (reads.symm.trans otherTokenized)
  subst same
  have terms_ := sameTerms_of_constrainAll constrained otherConstrained
    (fun term member => dashboardShared _ (List.mem_map_of_mem member))
    (fun term member => workspaceShared _ (List.mem_map_of_mem member))
  rw [DashboardQuery.matches_ofTerms]
  exact all_agrees made terms_ (fun term member field => branch ⟨term, member, field⟩)
    fun term member field value => running ⟨term, member, field, value⟩

end

def asciiSearch : SearchLibraries where
  parseJson _ := none
  noDuplicateMembers _ := true
  isUnsafeInvisibleChar _ := false
  lowercase text := text.map toAsciiLowercase
  lowercase_ne_nil text filled := by simpa using filled
  lowercase_ascii _ _ := rfl
  uuidText _ := ['7']
  localHostId := ['h']
  visible_ascii _ _ _ := rfl

def workingTask : AgentTask := { newRecord 7 0 sampleTask none with status := .working }

/-- No process of a task is known. -/
def noActivity : DashboardActivity := ⟨false, false, false, false⟩

theorem exists_ok {ε α : Type} {result : Except ε α} {holds : α → Bool}
    (there : result.toOption.any holds = true) :
    ∃ value, result = .ok value ∧ holds value = true := by
  cases result with
  | error error => cases there
  | ok value => exact ⟨value, rfl, there⟩

/-- A working task without a known process runs for the dashboard only. -/
theorem running_differs :
    let _ := asciiSearch
    ((DashboardQuery.parse "is:running".toList).toOption.map fun query =>
        (query.terms.all (·.field.isShared), query.matches (.fromTask workingTask noActivity))) =
        some (true, true) ∧
      ((WorkspaceQuery.parse "is:running".toList).toOption.bind fun query =>
        (WorkspaceRow.fromTask ['n'] workingTask noActivity).toOption.map fun row =>
          (query.terms.all (·.field.isShared), query.matches row)) = some (true, false) := by
  decide +kernel

theorem searches_agree_working :
    let _ := asciiSearch
    ∃ dashboard workspace row, DashboardQuery.parse "-status:review,working".toList = .ok dashboard ∧
      WorkspaceQuery.parse "-status:review,working".toList = .ok workspace ∧
      WorkspaceRow.fromTask ['n'] workingTask noActivity = .ok row ∧
      workspace.matches row = dashboard.matches (.fromTask workingTask noActivity) := by
  intro libraries
  obtain ⟨dashboard, dashboardOk, status⟩ := @exists_ok _ _
    (DashboardQuery.parse "-status:review,working".toList)
    (fun query => query.terms.all fun term => term.field = .status) (by decide +kernel)
  obtain ⟨workspace, workspaceOk, shared⟩ := @exists_ok _ _
    (WorkspaceQuery.parse "-status:review,working".toList)
    (fun query => query.terms.all (·.field.isShared)) (by decide +kernel)
  obtain ⟨row, made, -⟩ := @exists_ok _ _
    (WorkspaceRow.fromTask ['n'] workingTask noActivity) (fun _ => true) (by decide +kernel)
  have only : ∀ term ∈ dashboard.terms, term.field = .status :=
    fun term member => of_decide_eq_true (List.all_eq_true.mp status term member)
  refine ⟨dashboard, workspace, row, dashboardOk, workspaceOk, made, ?_⟩
  refine searches_agree dashboardOk workspaceOk ?_ (List.all_eq_true.mp shared) made ?_ ?_
  · intro term member
    rw [only term member]
    rfl
  · rintro ⟨term, member, field⟩
    rw [only term member] at field
    cases field
  · rintro ⟨term, member, field, -⟩
    rw [only term member] at field
    cases field

end JtermCore.Search
