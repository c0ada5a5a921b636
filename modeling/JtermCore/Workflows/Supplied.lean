import JtermCore.Workflows.Grammar

/-!
# Arguments that are not supplied

A walk that reaches a placeholder of a missing name notes it, and `render` then
fails.  A rendered command has reached none, so a value for such an argument
changes no round of the walk.
-/

namespace JtermCore.Workflows

open Bytes Checked ExecutionJournal Result Utf8

section

variable (template : Bytes) (closes nexts : List (Option Nat))

/-- The name that a round at an offset looks up. -/
def lookedUp (i : Nat) : Option Bytes :=
  if template[i]? = some openBrace then
    if pairAt openBrace template i then
      closes[i]?.join.bind fun stop => (sliceText template (i + 2) stop).map trim
    else
      nexts[i + 1]?.join.bind fun stop => (sliceText template (i + 1) stop).map trim
  else
    none

variable (bindings : List (Bytes × Bytes)) (missingBindings : List Bytes)

def Round (first second : Rendering × Nat) : Prop :=
  first.2 < template.length ∧
    renderStep template closes nexts bindings missingBindings first.1 first.2 = some (.ok second)

end

def LooksUp (template : Bytes) (bindings : List (Bytes × Bytes)) (missingBindings : List Bytes)
    (name : Bytes) : Prop :=
  ∃ closes nexts reached, matchingDoubleBraceCloses template = some closes ∧
    nextClosingBraces template = some nexts ∧
    Relation.ReflTransGen (Round template closes nexts bindings missingBindings) (⟨[], []⟩, 0)
      reached ∧ lookedUp template closes nexts reached.2 = some name

/-- Two sets of bindings that say the same about a name. -/
def SameFor (bindings bindings' : List (Bytes × Bytes)) (missing missing' : List Bytes)
    (name : Bytes) : Prop := boundValue bindings name = boundValue bindings' name ∧
    missing.contains name = missing'.contains name

section

variable {template : Bytes} {closes nexts : List (Option Nat)}
  {bindings bindings' : List (Bytes × Bytes)} {missing missing' : List Bytes}

variable {name : Bytes}

theorem placeholder_same (same : SameFor bindings bindings' missing missing' name)
    (rendering : Rendering) (next : Nat) (unbound : Option (Except Bytes (Rendering × Nat))) :
    placeholder bindings missing rendering name next unbound =
      placeholder bindings' missing' rendering name next unbound := by
  rw [placeholder, placeholder, same.1, same.2]

variable {i : Nat}

theorem renderStep_same
    (same : ∀ name, lookedUp template closes nexts i = some name →
      SameFor bindings bindings' missing missing' name) (rendering : Rendering) :
    renderStep template closes nexts bindings missing rendering i =
      renderStep template closes nexts bindings' missing' rendering i := by
  unfold renderStep
  cases read : template[i]? with
  | none => rfl
  | some byte =>
    rw [Option.bind_eq_bind, Option.bind_some, Option.bind_eq_bind, Option.bind_some]
    by_cases opens : byte = openBrace
    · unfold lookedUp at same
      rw [if_pos (by rw [read, opens])] at same
      rw [if_pos opens, if_pos opens]
      by_cases pair : pairAt openBrace template i = true
      · rw [if_pos pair] at same
        rw [if_pos pair, if_pos pair]
        rcases found : closes[i]? with _ | _ | stop
        · rfl
        · rfl
        · rw [found] at same
          cases slice : sliceText template (i + 2) stop with
          | none => simp only [Option.bind_eq_bind, Option.bind_some, slice, Option.bind_none]
          | some name =>
            have looks := same (trim name) (by
              rw [Option.join_some, Option.bind_some, slice, Option.map_some])
            simp only [Option.bind_eq_bind, Option.bind_some, slice, placeholder_same looks]
      · rw [if_neg pair] at same
        rw [if_neg pair, if_neg pair]
        rcases found : nexts[i + 1]? with _ | _ | stop
        · rfl
        · rfl
        · rw [found] at same
          cases slice : sliceText template (i + 1) stop with
          | none => simp only [Option.bind_eq_bind, Option.bind_some, slice, Option.bind_none]
          | some name =>
            have looks := same (trim name) (by
              rw [Option.join_some, Option.bind_some, slice, Option.map_some])
            simp only [Option.bind_eq_bind, Option.bind_some, slice, placeholder_same looks]
    · rw [if_neg opens, if_neg opens]

variable {rendering : Rendering}

variable {later : Rendering} {stop : Nat} {next : Nat}

theorem push_missing {addition : Bytes}
    (pushed : rendering.push addition next = .ok (later, stop)) :
    later.missing = rendering.missing := by
  unfold Rendering.push at pushed
  obtain ⟨out, -, same⟩ := Result.map_eq_ok.mp pushed
  cases same
  rfl

theorem miss_missing (rendering : Rendering) (name : Bytes) :
    (rendering.miss name).missing ≠ [] := by
  unfold Rendering.miss
  split
  · rename_i listed
    obtain ⟨entry, member, -⟩ := List.any_eq_true.mp listed
    exact List.ne_nil_of_mem member
  · simp

theorem placeholder_missing {unbound : Option (Except Bytes (Rendering × Nat))}
    (keeps : ∀ later stop, unbound = some (.ok (later, stop)) → later.missing = rendering.missing)
    (went : placeholder bindings missing rendering name next unbound = some (.ok (later, stop))) :
    later.missing ≠ [] ∨ later.missing = rendering.missing ∧
      ¬ (boundValue bindings name = none ∧ missing.contains name = true) := by
  unfold placeholder at went
  cases bound : boundValue bindings name with
  | some value =>
    rw [bound] at went
    exact .inr ⟨push_missing (Option.some.inj went), fun free => by cases free.1⟩
  | none =>
    rw [bound] at went
    dsimp only at went
    split at went
    · cases Option.some.inj went
      exact .inl (miss_missing rendering name)
    · rename_i supplied
      exact .inr ⟨keeps later stop went, fun free => supplied free.2⟩

theorem character_missing (went : character template rendering i = some (.ok (later, stop))) :
    later.missing = rendering.missing := by
  unfold character at went
  obtain ⟨rest, -, went⟩ := Option.bind_eq_some_iff.mp went
  obtain ⟨char, -, went⟩ := Option.bind_eq_some_iff.mp went
  exact push_missing (Option.some.inj went)

theorem renderStep_missing
    (went : renderStep template closes nexts bindings missing rendering i =
      some (.ok (later, stop))) : later.missing ≠ [] ∨ later.missing = rendering.missing ∧
      ∀ name, lookedUp template closes nexts i = some name →
        ¬ (boundValue bindings name = none ∧ missing.contains name = true) := by
  unfold renderStep at went
  obtain ⟨byte, read, went⟩ := Option.bind_eq_some_iff.mp went
  unfold lookedUp
  by_cases opens : byte = openBrace
  · rw [if_pos opens] at went
    rw [if_pos (by rw [read, opens])]
    by_cases pair : pairAt openBrace template i = true
    · rw [if_pos pair] at went
      rw [if_pos pair]
      obtain ⟨close, found, went⟩ := Option.bind_eq_some_iff.mp went
      rw [found, Option.join_some]
      cases close with
      | none => exact .inr ⟨push_missing (Option.some.inj went), fun name none_ => by cases none_⟩
      | some stop =>
        obtain ⟨name, slice, went⟩ := Option.bind_eq_some_iff.mp went
        rcases placeholder_missing (fun _ _ same => push_missing (Option.some.inj same)) went
          with noted | ⟨kept, free⟩
        · exact .inl noted
        · refine .inr ⟨kept, fun other here => ?_⟩
          rw [Option.bind_some, slice, Option.map_some, Option.some.injEq] at here
          rw [← here]
          exact free
    · rw [if_neg pair] at went
      rw [if_neg pair]
      obtain ⟨close, found, went⟩ := Option.bind_eq_some_iff.mp went
      rw [found, Option.join_some]
      cases close with
      | none => exact .inr ⟨character_missing went, fun name none_ => by cases none_⟩
      | some stop =>
        obtain ⟨name, slice, went⟩ := Option.bind_eq_some_iff.mp went
        have keeps (later : Rendering) (next : Nat)
            (same : ((sliceText template i (stop + 1)).bind fun whole =>
              some (rendering.push whole (stop + 1))) = some (.ok (later, next))) :
            later.missing = rendering.missing := by
          obtain ⟨whole, -, same⟩ := Option.bind_eq_some_iff.mp same
          exact push_missing (Option.some.inj same)
        rcases placeholder_missing keeps went with noted | ⟨kept, free⟩
        · exact .inl noted
        · refine .inr ⟨kept, fun other here => ?_⟩
          rw [Option.bind_some, slice, Option.map_some, Option.some.injEq] at here
          rw [← here]
          exact free
  · rw [if_neg opens] at went
    rw [if_neg (by rw [read, Option.some.injEq]; exact opens)]
    refine .inr ⟨?_, fun name none_ => by cases none_⟩
    split at went
    · exact push_missing (Option.some.inj went)
    · exact character_missing went

variable {final : Rendering}

variable {fuel : Nat}

theorem renderLoop_round
    (ran : renderLoop template closes nexts bindings missing fuel rendering i = some (.ok final))
    (round : Round template closes nexts bindings missing (rendering, i) (later, next)) :
    ∃ fuel', renderLoop template closes nexts bindings missing fuel' later next =
      some (.ok final) := by
  cases fuel with
  | zero =>
    rw [renderLoop, if_pos round.1] at ran
    cases ran
  | succ fuel =>
    rw [renderLoop, if_pos round.1, round.2] at ran
    exact ⟨fuel, ran⟩

variable {reached : Rendering × Nat}

section

variable (ran : renderLoop template closes nexts bindings missing fuel rendering i = some (.ok final))

include ran

theorem renderLoop_reached
    (walked : Relation.ReflTransGen (Round template closes nexts bindings missing) (rendering, i)
      reached) :
    ∃ fuel', renderLoop template closes nexts bindings missing fuel' reached.1 reached.2 =
      some (.ok final) := by
  induction walked with
  | refl => exact ⟨fuel, ran⟩
  | tail _ round ih =>
    obtain ⟨fuel', ran'⟩ := ih
    exact renderLoop_round ran' round

theorem renderLoop_missing (noted : rendering.missing ≠ []) : final.missing ≠ [] := by
  induction fuel generalizing rendering i with
  | zero =>
    rw [renderLoop] at ran
    split at ran
    · cases ran
    · cases ran
      exact noted
  | succ fuel ih =>
    rw [renderLoop] at ran
    split at ran
    · obtain ⟨result, stepped, ran⟩ := Option.bind_eq_some_iff.mp ran
      cases result with
      | error error => cases ran
      | ok done =>
        refine ih ran ?_
        rcases renderStep_missing stepped with now | ⟨same, -⟩
        · exact now
        · rw [same]
          exact noted
    · cases ran
      exact noted

theorem not_missing_of_reached (nothing : final.missing = [])
    (walked : Relation.ReflTransGen (Round template closes nexts bindings missing) (rendering, i)
      reached) (looks : lookedUp template closes nexts reached.2 = some name) :
    ¬ (boundValue bindings name = none ∧ missing.contains name = true) := by
  obtain ⟨fuel', ran'⟩ := renderLoop_reached ran walked
  have inside : reached.2 < template.length := by
    unfold lookedUp at looks
    split at looks
    · rename_i read
      exact (List.getElem?_eq_some_iff.mp read).1
    · cases looks
  cases fuel' with
  | zero =>
    rw [renderLoop, if_pos inside] at ran'
    cases ran'
  | succ fuel' =>
    rw [renderLoop, if_pos inside] at ran'
    obtain ⟨result, stepped, ran'⟩ := Option.bind_eq_some_iff.mp ran'
    cases result with
    | error error => cases ran'
    | ok done =>
      rcases renderStep_missing stepped with noted | ⟨-, free⟩
      · exact absurd nothing (renderLoop_missing ran' noted)
      · exact free name looks

end

theorem renderLoop_same
    (same : ∀ reached name, Relation.ReflTransGen (Round template closes nexts bindings missing)
      (rendering, i) reached → lookedUp template closes nexts reached.2 = some name →
        SameFor bindings bindings' missing missing' name) :
    renderLoop template closes nexts bindings missing fuel rendering i =
      renderLoop template closes nexts bindings' missing' fuel rendering i := by
  induction fuel generalizing rendering i with
  | zero => rw [renderLoop, renderLoop]
  | succ fuel ih =>
    rw [renderLoop, renderLoop]
    by_cases inside : i < template.length
    · rw [if_pos inside, if_pos inside]
      rw [← renderStep_same (fun name looks => same _ name .refl looks)]
      cases stepped : renderStep template closes nexts bindings missing rendering i with
      | none => rfl
      | some result =>
        cases result with
        | error error => rfl
        | ok done =>
          refine ih fun reached name walked => same reached name ?_
          exact .head (show Round template closes nexts bindings missing (rendering, i) done
            from ⟨inside, stepped⟩) walked
    · rw [if_neg inside, if_neg inside]

section

variable (ran : renderTemplate template bindings missing = some (.ok final))

include ran

theorem renderTemplate_ok : ¬ maxWorkflowCommandBytes < template.length ∧
      ∃ closes nexts, matchingDoubleBraceCloses template = some closes ∧
        nextClosingBraces template = some nexts ∧
        renderLoop template closes nexts bindings missing template.length ⟨[], []⟩ 0 =
          some (.ok final) := by
  unfold renderTemplate at ran
  split at ran
  · cases ran
  · rename_i short
    obtain ⟨closes, ranCloses, ran⟩ := Option.bind_eq_some_iff.mp ran
    obtain ⟨nexts, ranNexts, ran⟩ := Option.bind_eq_some_iff.mp ran
    exact ⟨short, closes, nexts, ranCloses, ranNexts, ran⟩

theorem not_missing_of_looksUp
    (nothing : final.missing = []) (looks : LooksUp template bindings missing name) :
    ¬ (boundValue bindings name = none ∧ missing.contains name = true) := by
  obtain ⟨-, closes, nexts, ranCloses, ranNexts, loop⟩ := renderTemplate_ok ran
  obtain ⟨closes', nexts', reached, ranCloses', ranNexts', walked, here⟩ := looks
  cases ranCloses.symm.trans ranCloses'
  cases ranNexts.symm.trans ranNexts'
  exact not_missing_of_reached loop nothing walked here

theorem renderTemplate_same
    (same : ∀ name, LooksUp template bindings missing name →
      SameFor bindings bindings' missing missing' name) :
    renderTemplate template bindings' missing' = some (.ok final) := by
  obtain ⟨short, closes, nexts, ranCloses, ranNexts, loop⟩ := renderTemplate_ok ran
  unfold renderTemplate
  rw [if_neg short, ranCloses, ranNexts]
  have agrees (reached : Rendering × Nat) (name : Bytes)
      (walked : Relation.ReflTransGen (Round template closes nexts bindings missing) (⟨[], []⟩, 0)
        reached) (here : lookedUp template closes nexts reached.2 = some name) :
      SameFor bindings bindings' missing missing' name :=
    same name ⟨closes, nexts, reached, ranCloses, ranNexts, walked, here⟩
  exact (renderLoop_same agrees).symm.trans loop

end

end

section

variable {workflow : Workflow} {values values' : List (Bytes × Bytes)}

variable {name : Bytes}

theorem mem_missingNames : name ∈ missingNames workflow values ↔
    ∃ argument ∈ workflow.args, notSupplied values argument = true ∧ argument.name = name := by
  simp only [missingNames, List.mem_map, List.mem_filter, and_assoc]

theorem boundValue_append (first second : List (Bytes × Bytes)) (name : Bytes) :
    boundValue (first ++ second) name = (boundValue first name).or (boundValue second name) := by
  rw [boundValue, List.find?_append, boundValue, boundValue]
  cases first.find? fun binding => binding.1 = name <;> rfl

theorem boundValue_filter (keeps : Bytes → Bool) (name : Bytes) :
    boundValue (values.filter fun binding => keeps binding.1) name =
      if keeps name = true then boundValue values name else none := by
  unfold boundValue
  rw [List.find?_filter]
  by_cases kept : keeps name = true
  · rw [if_pos kept]
    congr 2
    funext binding
    by_cases same : binding.1 = name
    · simp [same, kept]
    · simp [same]
  · rw [if_neg kept, Option.map_eq_none_iff, List.find?_eq_none]
    intro binding _ both
    simp only [decide_eq_true_eq] at both
    rw [both.2] at both
    exact kept both.1

def defaultValue (workflow : Workflow) (values : List (Bytes × Bytes)) (name : Bytes) :
    Option Bytes := boundValue (workflow.args.filterMap fun argument =>
    if (boundValue values argument.name).isSome then none
    else argument.default.map (argument.name, ·)) name

theorem defaultValue_eq (name : Bytes) : defaultValue workflow values name =
    if (boundValue values name).isSome then none
    else (workflow.args.find? fun argument =>
      argument.name = name && argument.default.isSome).bind WorkflowArg.default := by
  unfold defaultValue
  rw [boundValue, List.find?_filterMap]
  by_cases given : (boundValue values name).isSome = true
  · rw [if_pos given, Option.map_eq_none_iff, Option.bind_eq_none_iff]
    intro argument found
    have here := List.find?_some found
    by_cases same : argument.name = name
    · rw [same, if_pos given]
    · split at here
      · cases here
      · cases default_ : argument.default <;> simp [default_, same] at here
  · rw [if_neg given]
    have tests (argument : WorkflowArg) :
        (if (boundValue values argument.name).isSome = true then none
          else argument.default.map (argument.name, ·)).any (fun binding => binding.1 = name) =
        (decide (argument.name = name) && argument.default.isSome) := by
      by_cases same : argument.name = name
      · rw [same, if_neg given]
        cases argument.default <;> simp
      · split
        · simp [same]
        · cases argument.default <;> simp [same]
    simp only [tests]
    cases found : workflow.args.find? fun argument =>
        decide (argument.name = name) && argument.default.isSome with
    | none => rfl
    | some argument =>
      have here := List.find?_some found
      simp only [Bool.and_eq_true, decide_eq_true_eq] at here
      rw [Option.bind_some, Option.bind_some, here.1, if_neg given, Option.map_map]
      cases argument.default <;> rfl

theorem boundValue_renderBindings (name : Bytes) :
    boundValue (renderBindings workflow values) name =
      (if (missingNames workflow values).contains name then none else boundValue values name).or
        (defaultValue workflow values name) := by
  rw [renderBindings, boundValue_append]
  congr 1
  rw [boundValue_filter fun key => !(missingNames workflow values).contains key]
  by_cases missing : (missingNames workflow values).contains name = true
  · rw [missing]
    rfl
  · rw [Bool.not_eq_true] at missing
    rw [missing]
    rfl

theorem boundValue_missing (unique : (workflow.args.map WorkflowArg.name).Nodup)
    (missing : name ∈ missingNames workflow values) :
    boundValue (renderBindings workflow values) name = none := by
  rw [boundValue_renderBindings, if_pos (List.contains_iff_mem.mpr missing), Option.none_or,
    defaultValue_eq]
  split
  · rfl
  · obtain ⟨argument, listed, free, rfl⟩ := mem_missingNames.mp missing
    rw [Option.bind_eq_none_iff]
    intro other found
    have here := List.find?_some found
    simp only [Bool.and_eq_true, decide_eq_true_eq] at here
    have same : other = argument :=
      List.inj_on_of_nodup_map unique (List.mem_of_find?_eq_some found) listed here.1
    simp only [notSupplied, Bool.and_eq_true, Option.isNone_iff_eq_none] at free
    rw [same, free.1]

theorem sameFor_of_value (same : boundValue values name = boundValue values' name) :
    SameFor (renderBindings workflow values) (renderBindings workflow values')
      (missingNames workflow values) (missingNames workflow values') name := by
  have missing : (missingNames workflow values).contains name =
      (missingNames workflow values').contains name := by
    rw [Bool.eq_iff_iff, List.contains_iff_mem, List.contains_iff_mem, mem_missingNames,
      mem_missingNames]
    have each (argument : WorkflowArg) (here : argument.name = name) :
        notSupplied values argument = notSupplied values' argument := by
      rw [notSupplied, notSupplied, here, same]
    constructor
    · rintro ⟨argument, listed, free, here⟩
      exact ⟨argument, listed, each argument here ▸ free, here⟩
    · rintro ⟨argument, listed, free, here⟩
      exact ⟨argument, listed, (each argument here).symm ▸ free, here⟩
  refine ⟨?_, missing⟩
  rw [boundValue_renderBindings, boundValue_renderBindings, missing, same, defaultValue_eq,
    defaultValue_eq, same]

theorem boundValue_of_mem {binding : Bytes × Bytes} (unique : (values.map Prod.fst).Nodup)
    (member : binding ∈ values) : boundValue values binding.1 = some binding.2 := by
  unfold boundValue
  cases found : values.find? fun other => other.1 = binding.1 with
  | none =>
    have absent := List.find?_eq_none.mp found binding member
    simp at absent
  | some other =>
    have here := List.find?_some found
    rw [List.inj_on_of_nodup_map unique (List.mem_of_find?_eq_some found) member
      (by simpa using here)]
    rfl

theorem mem_of_boundValue {value : Bytes} (bound : boundValue values name = some value) :
    (name, value) ∈ values := by
  obtain ⟨binding, found, rfl⟩ := Option.map_eq_some_iff.mp bound
  have here := List.find?_some found
  have same : binding.1 = name := by simpa using here
  rw [← same]
  exact List.mem_of_find?_eq_some found

end

theorem forM_eq_ok {ε α : Type} {check : α → Except ε Unit} {entries : List α} :
    entries.forM check = .ok () ↔ ∀ entry ∈ entries, check entry = .ok () := by
  induction entries with
  | nil => exact ⟨fun _ _ member => (List.not_mem_nil member).elim, fun _ => rfl⟩
  | cons entry entries ih =>
    rw [List.forM, bind_eq_ok, List.forall_mem_cons]
    constructor
    · rintro ⟨⟨⟩, first, rest⟩
      exact ⟨first, ih.mp rest⟩
    · rintro ⟨first, rest⟩
      exact ⟨(), first, ih.mpr rest⟩

section

variable [Libraries] {workflow : Workflow} {values : List (Bytes × Bytes)}

variable {names names' : List Bytes}

theorem validateArgument_names {argument : WorkflowArg}
    (valid : validateArgument names argument = .ok names') :
    names' = argument.name :: names ∧ argument.name ∉ names ∧
      validateBindingName (ofAscii "argument name") argument.name = .ok () := by
  unfold validateArgument at valid
  obtain ⟨⟨⟩, named, valid⟩ := bind_eq_ok.mp valid
  obtain ⟨⟨⟩, unique, valid⟩ := bind_eq_ok.mp valid
  obtain ⟨⟨⟩, -, valid⟩ := bind_eq_ok.mp valid
  refine ⟨?_, reject_eq_ok.mp unique, named⟩
  cases given : argument.default with
  | none =>
    rw [given] at valid
    exact (pure_eq_ok.mp valid).symm
  | some text =>
    rw [given] at valid
    obtain ⟨⟨⟩, -, valid⟩ := bind_eq_ok.mp valid
    obtain ⟨⟨⟩, -, valid⟩ := bind_eq_ok.mp valid
    exact (pure_eq_ok.mp valid).symm

theorem validateArguments_names {arguments : List WorkflowArg}
    (valid : arguments.foldlM validateArgument names = .ok names') (unique : names.Nodup) :
    names'.Nodup ∧ names' = (arguments.map WorkflowArg.name).reverse ++ names ∧
      ∀ argument ∈ arguments,
        validateBindingName (ofAscii "argument name") argument.name = .ok () := by
  induction arguments generalizing names with
  | nil =>
    cases pure_eq_ok.mp valid
    exact ⟨unique, rfl, fun _ member => nomatch member⟩
  | cons argument arguments ih =>
    rw [List.foldlM_cons] at valid
    obtain ⟨middle, first, rest⟩ := bind_eq_ok.mp valid
    obtain ⟨rfl, new, named⟩ := validateArgument_names first
    obtain ⟨nodup, same, all⟩ := ih rest (List.nodup_cons.mpr ⟨new, unique⟩)
    refine ⟨nodup, by simp [same], fun other member => ?_⟩
    rcases List.mem_cons.mp member with rfl | later
    · exact named
    · exact all other later

theorem validate_names (valid : validate workflow = .ok ()) :
    (workflow.args.map WorkflowArg.name).Nodup ∧ ∀ argument ∈ workflow.args,
      validateBindingName (ofAscii "argument name") argument.name = .ok () := by
  have checked : ∃ names, workflow.args.foldlM validateArgument [] = .ok names := by
    unfold validate at valid
    obtain ⟨⟨⟩, -, valid⟩ := bind_eq_ok.mp valid
    obtain ⟨⟨⟩, -, valid⟩ := bind_eq_ok.mp valid
    obtain ⟨⟨⟩, -, valid⟩ := bind_eq_ok.mp valid
    obtain ⟨⟨⟩, -, valid⟩ := bind_eq_ok.mp valid
    obtain ⟨_, -, valid⟩ := bind_eq_ok.mp valid
    obtain ⟨⟨⟩, -, valid⟩ := bind_eq_ok.mp valid
    obtain ⟨⟨⟩, -, valid⟩ := bind_eq_ok.mp valid
    obtain ⟨⟨⟩, -, valid⟩ := bind_eq_ok.mp valid
    cases given : workflow.shell with
    | none =>
      rw [given] at valid
      obtain ⟨⟨⟩, -, valid⟩ := bind_eq_ok.mp valid
      obtain ⟨names, ran, -⟩ := bind_eq_ok.mp valid
      exact ⟨names, ran⟩
    | some shell =>
      rw [given] at valid
      obtain ⟨⟨⟩, -, valid⟩ := bind_eq_ok.mp valid
      obtain ⟨⟨⟩, -, valid⟩ := bind_eq_ok.mp valid
      obtain ⟨names, ran, -⟩ := bind_eq_ok.mp valid
      exact ⟨names, ran⟩
  obtain ⟨names, ran⟩ := checked
  obtain ⟨nodup, same, all⟩ := validateArguments_names ran List.nodup_nil
  rw [same, List.append_nil, List.nodup_reverse] at nodup
  exact ⟨nodup, all⟩

theorem validateReviewInput_ok {text text' : Bytes} (valid : validateReviewInput text = .ok text') :
    text' = text := by
  unfold validateReviewInput at valid
  split at valid
  · cases valid
  split at valid
  · cases valid
  split at valid
  · cases valid
  split at valid
  · cases valid
  · exact (Except.ok.inj valid).symm

theorem render_eq_ok {out : Bytes} : render workflow values = some (.ok out) ↔
    validate workflow = .ok () ∧ values.length ≤ maxWorkflowArgs ∧
      (∀ binding ∈ values, validateValue binding.1 binding.2 = .ok ()) ∧
      renderTemplate workflow.command (renderBindings workflow values)
        (missingNames workflow values) = some (.ok ⟨out, []⟩) ∧
      validateReviewInput out = .ok out := by
  unfold render
  constructor
  · intro ran
    split at ran
    · cases ran
    · rename_i checked
      obtain ⟨⟨⟩, valid, checked⟩ := bind_eq_ok.mp checked
      obtain ⟨⟨⟩, few, each⟩ := bind_eq_ok.mp checked
      obtain ⟨result, walked, ran⟩ := Option.map_eq_some_iff.mp ran
      obtain ⟨rendering, same, gave⟩ := bind_eq_ok.mp ran
      obtain ⟨⟨⟩, nothing, gave⟩ := bind_eq_ok.mp gave
      obtain ⟨reviewed, review, gave⟩ := bind_eq_ok.mp gave
      obtain rfl : rendering.out = out := pure_eq_ok.mp gave
      have empty : rendering.missing = [] := Decidable.not_not.mp (reject_eq_ok.mp nothing)
      refine ⟨valid, Nat.not_lt.mp (reject_eq_ok.mp few), forM_eq_ok.mp each, ?_, ?_⟩
      · rw [walked, same, ← empty]
      · cases checked : validateReviewInput rendering.out with
        | error error =>
          rw [checked] at review
          cases review
        | ok text => rw [validateReviewInput_ok checked]
  · rintro ⟨valid, few, each, walked, review⟩
    split
    · rename_i failed
      cases failed.symm.trans (bind_eq_ok.mpr ⟨(), valid, bind_eq_ok.mpr
        ⟨(), reject_eq_ok.mpr (Nat.not_lt.mpr few), forM_eq_ok.mpr each⟩⟩)
    rw [walked]
    show some (do
      let rendering ← Except.ok (⟨out, []⟩ : Rendering)
      reject (rendering.missing ≠ []) (ofAscii "missing values: " ++ joinNames rendering.missing)
      let _ ← (validateReviewInput rendering.out).mapError unsafeCommand
      return rendering.out) = _
    refine congrArg some (bind_eq_ok.mpr ⟨_, rfl, bind_eq_ok.mpr ⟨(), rfl, ?_⟩⟩)
    rw [review]
    rfl

def SafeValue (value : Bytes) : Prop :=
  value.length ≤ maxWorkflowCommandBytes ∧ containsUnsafeCharacter value = false

theorem validateBindingName_label {label label' name : Bytes}
    (valid : validateBindingName label name = .ok ()) :
    validateBindingName label' name = .ok () := by
  unfold validateBindingName validateDisplayField at valid ⊢
  obtain ⟨⟨⟩, display, trimmed⟩ := bind_eq_ok.mp valid
  obtain ⟨⟨⟩, visible, display⟩ := bind_eq_ok.mp display
  obtain ⟨⟨⟩, short, clean⟩ := bind_eq_ok.mp display
  exact bind_eq_ok.mpr ⟨(), bind_eq_ok.mpr ⟨(), reject_eq_ok.mpr (reject_eq_ok.mp visible),
    bind_eq_ok.mpr ⟨(), reject_eq_ok.mpr (reject_eq_ok.mp short),
      reject_eq_ok.mpr (reject_eq_ok.mp clean)⟩⟩, reject_eq_ok.mpr (reject_eq_ok.mp trimmed)⟩

def Gives (values values' : List (Bytes × Bytes)) (name value : Bytes) : Prop :=
  (values'.map Prod.fst).Nodup ∧ values'.length ≤ maxWorkflowArgs ∧
    ∀ key, boundValue values' key = if key = name then some value else boundValue values key

theorem render_ok {out : Bytes} (rendered : render workflow values = some (.ok out)) :
    validateReviewInput out = .ok out ∧
      (∀ name ∈ missingNames workflow values, ¬ LooksUp workflow.command
        (renderBindings workflow values) (missingNames workflow values) name) ∧
      ∀ argument ∈ workflow.args, notSupplied values argument = true →
        ∀ value values', SafeValue value → Gives values values' argument.name value →
          render workflow values' = some (.ok out) := by
  obtain ⟨valid, few, each, walked, review⟩ := render_eq_ok.mp rendered
  obtain ⟨unique, named⟩ := validate_names valid
  have unread (name : Bytes) (missing : name ∈ missingNames workflow values) :
      ¬ LooksUp workflow.command (renderBindings workflow values) (missingNames workflow values)
        name := fun looks =>
    not_missing_of_looksUp walked rfl looks
      ⟨boundValue_missing unique missing, List.contains_iff_mem.mpr missing⟩
  refine ⟨review, unread, fun argument listed free value values' safe gives => ?_⟩
  obtain ⟨unique', few', lookup⟩ := gives
  have missing : argument.name ∈ missingNames workflow values :=
    mem_missingNames.mpr ⟨argument, listed, free, rfl⟩
  refine render_eq_ok.mpr ⟨valid, few', fun binding member => ?_, ?_, review⟩
  · have bound := boundValue_of_mem unique' member
    rw [lookup] at bound
    split at bound
    · rename_i here
      cases bound
      unfold validateValue
      rw [here]
      refine bind_eq_ok.mpr ⟨(), validateBindingName_label (named argument listed), ?_⟩
      refine bind_eq_ok.mpr ⟨(), reject_eq_ok.mpr (Nat.not_lt.mpr safe.1), reject_eq_ok.mpr ?_⟩
      rw [safe.2]
      exact Bool.false_ne_true
    · exact each _ (mem_of_boundValue bound)
  · refine renderTemplate_same walked fun name looks => sameFor_of_value ?_
    have other : name ≠ argument.name := fun same => unread name (same ▸ missing) looks
    rw [lookup, if_neg other]

/-- Rendering substitutes once and guesses no value. -/
theorem render_substitutes_once :
    (∀ bindings (template : Template), PlainNames bindings → template.Fits bindings →
      width template.source ≤ maxWorkflowCommandBytes →
        substitute (encodeUtf8 template.source) bindings =
          some (if (template.value bindings).length ≤ maxWorkflowCommandBytes then
            .ok (template.value bindings) else .error renderedTooLong)) ∧
    ∀ (workflow : Workflow) values out, render workflow values = some (.ok out) →
      validateReviewInput out = .ok out ∧
        (∀ name ∈ missingNames workflow values, ¬ LooksUp workflow.command
          (renderBindings workflow values) (missingNames workflow values) name) ∧
        ∀ argument ∈ workflow.args, notSupplied values argument = true →
          ∀ value values', SafeValue value → Gives values values' argument.name value →
            render workflow values' = some (.ok out) :=
  ⟨fun _ _ plainNames fits short => substitute_template plainNames fits short,
    fun _ _ _ rendered => render_ok rendered⟩

end

theorem width_replicate (count : Nat) : width (List.replicate count 'x') = count := by
  induction count with
  | zero => rfl
  | succ count ih =>
    have one : width ['x'] = 1 := rfl
    rw [List.replicate_succ, ← List.singleton_append, width_append, ih, one, Nat.add_comm]

/-- A name that holds a brace can end inside a literal group, and a template can be
longer than what it stands for. -/
theorem grammar_limits :
    (∃ bindings, ∃ template : Template, template.Fits bindings ∧
      template.value bindings = ofAscii "\x7bY\x7d" ∧
      substitute (encodeUtf8 template.source) bindings = some (.ok (ofAscii "X\x7d"))) ∧
    ∃ template : Template, template.Fits [] ∧
      (template.value []).length ≤ maxWorkflowCommandBytes ∧
      ∃ error, substitute (encodeUtf8 template.source) [] = some (.error error) := by
  constructor
  · refine ⟨[(ofAscii "\x7ba", ofAscii "X"), (ofAscii "a", ofAscii "Y")],
      .group .empty (.single .empty ['a']), ?_, by decide, by decide⟩
    exact ⟨trivial, ⟨trivial, by decide, by decide⟩, by decide⟩
  · refine ⟨.text (.group .empty .empty) (List.replicate 65533 'x'), ?_, ?_, ?_⟩
    · refine ⟨⟨trivial, trivial, by decide⟩, ?_⟩
      rw [List.all_replicate]
      decide
    · have length : (encodeUtf8 (List.replicate 65533 'x')).length = 65533 := width_replicate _
      rw [Template.value, List.length_append, length]
      decide
    · have long : maxWorkflowCommandBytes < (encodeUtf8
          (Template.text (.group .empty .empty) (List.replicate 65533 'x')).source).length := by
        show maxWorkflowCommandBytes < width _
        rw [Template.source, width_append, width_replicate]
        decide
      unfold substitute renderTemplate
      rw [if_pos long]
      exact ⟨_, rfl⟩

end JtermCore.Workflows
