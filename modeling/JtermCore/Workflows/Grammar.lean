import JtermCore.Workflows.Walk

/-!
# Templates with balanced braces

A template in the grammar is text without braces, literal groups and
placeholders, one behind the other.  The walk emits the text as it is, one brace
for each pair around a group, and the value that a placeholder is bound to.
-/

namespace JtermCore.Workflows

open Bytes Checked ExecutionJournal Utf8

/-- A template: what stands in front, and its last part.  The name of a
placeholder is written with the spaces around it. -/
inductive Template where
  | empty
  | text (before : Template) (plain : List Char)
  | group (before inner : Template)
  | single (before : Template) (name : List Char)
  | double (before : Template) (name : List Char)

/-- A character that is no brace. -/
def isPlain (char : Char) : Bool := char ≠ '\x7b' && char ≠ '\x7d'

/-- The name a placeholder stands for. -/
def boundName (name : List Char) : Bytes := encodeUtf8 (trimChars name)

namespace Template

def source : Template → List Char
  | empty => []
  | text before plain => before.source ++ plain
  | group before inner =>
    before.source ++ (['\x7b', '\x7b'] ++ inner.source ++ ['\x7d', '\x7d'])
  | single before name => before.source ++ (['\x7b'] ++ name ++ ['\x7d'])
  | double before name =>
    before.source ++ (['\x7b', '\x7b'] ++ name ++ ['\x7d', '\x7d'])

def value (bindings : List (Bytes × Bytes)) : Template → Bytes
  | empty => []
  | text before plain => before.value bindings ++ encodeUtf8 plain
  | group before inner =>
    before.value bindings ++ ([openBrace] ++ inner.value bindings ++ [closeBrace])
  | single before name | double before name =>
    before.value bindings ++ (boundValue bindings (boundName name)).getD []

/-- A placeholder has a name without braces that is bound; the content of a
literal group is no bound name. -/
def Fits (bindings : List (Bytes × Bytes)) : Template → Prop
  | empty => True
  | text before plain => before.Fits bindings ∧ plain.all isPlain = true
  | group before inner => before.Fits bindings ∧ inner.Fits bindings ∧
      boundValue bindings (boundName inner.source) = none
  | single before name | double before name => before.Fits bindings ∧ name.all isPlain = true ∧
      (boundValue bindings (boundName name)).isSome = true

/-- The closing braces at the end of a template that the scan leaves unpaired. -/
def carry : Template → Nat
  | empty => 0
  | text before plain => if plain.isEmpty then before.carry else 0
  | group _ inner => inner.carry
  | single _ _ => 1
  | double _ _ => 0

end Template

def PlainNames (bindings : List (Bytes × Bytes)) : Prop :=
  ∀ binding ∈ bindings, openBrace ∉ binding.1

/-- The number of bytes of some characters. -/
def width (text : List Char) : Nat := (encodeUtf8 text).length

theorem width_append (first second : List Char) :
    width (first ++ second) = width first + width second := by
  rw [width, encodeUtf8_append, List.length_append]
  rfl

variable {text : List Char}

theorem between_width {before : List Char} (after : List Char)
    (same : text = before ++ after) : Between text (width before) := ⟨before, after, same, rfl⟩

theorem encode_open : String.utf8EncodeChar '\x7b' = [openBrace] :=
  rfl

theorem encode_close : String.utf8EncodeChar '\x7d' = [closeBrace] :=
  rfl

variable {char : Char}

theorem plain_bytes (plain : isPlain char = true) :
    ∀ byte ∈ String.utf8EncodeChar char, byte ≠ openBrace ∧ byte ≠ closeBrace := by
  simp only [isPlain, Bool.and_eq_true, decide_eq_true_eq] at plain
  intro byte member
  have code (brace : Char) (ascii : brace.toNat < 128)
      (here : byte = UInt8.ofNat brace.toNat) : char = brace := by
    have small : byte.toNat = brace.toNat := by rw [here, toNat_ofNat (by omega)]
    have same := (encodeChar_ascii member (by omega)).1
    rw [small] at same
    rw [← Char.ofNat_toNat char, ← Char.ofNat_toNat brace, same]
  exact ⟨fun here => plain.1 (code '\x7b' (by decide) here),
    fun here => plain.2 (code '\x7d' (by decide) here)⟩

theorem plain_text (plain : text.all isPlain = true) :
    ∀ byte ∈ encodeUtf8 text, byte ≠ openBrace ∧ byte ≠ closeBrace := by
  intro byte member
  obtain ⟨char, listed, inside⟩ := List.mem_flatMap.mp member
  exact plain_bytes (List.all_eq_true.mp plain char listed) byte inside

theorem getElem?_behind {bytes : Bytes} (front : Bytes) (byte : UInt8) (back : Bytes)
    (same : bytes = front ++ byte :: back) : bytes[front.length]? = some byte := by
  rw [same, List.getElem?_append_right (Nat.le_refl _), Nat.sub_self]
  rfl

variable {bytes : Bytes}

theorem scan_skip {offset : Nat} {byte : UInt8} (here : bytes[offset]? = some byte)
    (alone : bytes[offset + 1]? ≠ some byte ∨ (byte ≠ openBrace ∧ byte ≠ closeBrace))
    (depth : Nat) : findCloseLoop bytes depth offset = findCloseLoop bytes depth (offset + 1) := by
  have unpaired (brace : UInt8) (isBrace : brace = openBrace ∨ brace = closeBrace) :
      ¬ pairAt brace bytes offset = true := by
    intro pair
    simp only [pairAt, Bool.and_eq_true, decide_eq_true_eq] at pair
    rw [here, Option.some.injEq] at pair
    obtain ⟨rfl, next⟩ := pair
    rcases alone with other | plain
    · exact other next
    · rcases isBrace with same | same
      · exact plain.1 same
      · exact plain.2 same
  exact findCloseLoop_other (unpaired _ (.inl rfl)) (unpaired _ (.inr rfl))

variable {front back : Bytes}

theorem scan_plain {plain : Bytes} (same : bytes = front ++ plain ++ back)
    (noBrace : ∀ byte ∈ plain, byte ≠ openBrace ∧ byte ≠ closeBrace) (depth : Nat) :
    findCloseLoop bytes depth front.length =
      findCloseLoop bytes depth (front.length + plain.length) := by
  induction plain generalizing front with
  | nil => rfl
  | cons byte plain ih =>
    have here : bytes[front.length]? = some byte :=
      getElem?_behind front byte (plain ++ back) (by rw [same]; simp)
    have split : bytes = (front ++ [byte]) ++ plain ++ back := by rw [same]; simp
    have rest := ih split fun other member => noBrace other (by simp [member])
    rw [List.length_append, List.length_singleton] at rest
    rw [scan_skip here (.inr (noBrace byte (by simp))), rest, List.length_cons]
    congr 1
    omega

namespace Template

variable {bindings : List (Bytes × Bytes)}

theorem carry_le : ∀ template : Template, template.carry ≤ 1
  | empty => Nat.zero_le _
  | text before _ => by
    unfold carry
    split
    · exact carry_le before
    · exact Nat.zero_le _
  | group _ inner => carry_le inner
  | single _ _ => Nat.le_refl _
  | double _ _ => Nat.zero_le _

theorem source_of_carry : ∀ template : Template, template.carry = 1 →
    ∃ front, template.source = front ++ ['\x7d'] ∧ '\x7b' ∈ front
  | empty, carried => by cases carried
  | text before plain, carried => by
    unfold carry at carried
    split at carried
    · rename_i nothing
      obtain ⟨front, same, member⟩ := source_of_carry before carried
      refine ⟨front, ?_, member⟩
      rw [source, same, List.isEmpty_iff.mp nothing, List.append_nil]
    · cases carried
  | group before inner, _ =>
    ⟨before.source ++ (['\x7b', '\x7b'] ++ inner.source ++ ['\x7d']), by simp [source], by simp⟩
  | single before name, _ =>
    ⟨before.source ++ (['\x7b'] ++ name), by simp [source], by simp⟩
  | double _ _, carried => by cases carried

/-- The end of the scan over a template. -/
def scanned (template : Template) : Nat := width template.source - template.carry

theorem carry_le_width (template : Template) : template.carry ≤ width template.source := by
  have small := template.carry_le
  cases carried : template.carry with
  | zero => exact Nat.zero_le _
  | succ more =>
    have one : template.carry = 1 := by omega
    obtain ⟨front, same, -⟩ := template.source_of_carry one
    rw [same, width_append]
    have last : width ['\x7d'] = 1 := rfl
    omega

variable {template : Template}

theorem scan_carry {next : UInt8}
    (same : bytes = front ++ encodeUtf8 template.source ++ next :: back)
    (other : next ≠ closeBrace) (depth : Nat) :
    findCloseLoop bytes depth (front.length + template.scanned) =
      findCloseLoop bytes depth (front.length + width template.source) := by
  have small := template.carry_le
  unfold scanned
  cases carried : template.carry with
  | zero => rfl
  | succ more =>
    have one : template.carry = 1 := by omega
    obtain ⟨init, ends, -⟩ := template.source_of_carry one
    have split : bytes = (front ++ encodeUtf8 init) ++ closeBrace :: (next :: back) := by
      rw [same, ends, encodeUtf8_append]
      simp [encodeUtf8_cons, encodeUtf8_nil, encode_close]
    have here := getElem?_behind _ _ _ split
    have split' : bytes = (front ++ encodeUtf8 init ++ [closeBrace]) ++ next :: back := by
      rw [split]
      simp
    have behind := getElem?_behind _ _ _ split'
    rw [List.length_append, List.length_singleton] at behind
    have alone : bytes[(front ++ encodeUtf8 init).length + 1]? ≠ some closeBrace := by
      rw [behind]
      simpa using other
    have skip := scan_skip here (.inl alone) depth
    rw [List.length_append] at skip
    have total : width template.source = (encodeUtf8 init).length + 1 := by
      rw [ends, width_append]
      rfl
    rw [total, show more = 0 by omega]
    exact skip

theorem pair_scanned
    (same : bytes = front ++ encodeUtf8 template.source ++ (closeBrace :: closeBrace :: back)) :
    pairAt closeBrace bytes (front.length + template.scanned) = true := by
  have small := template.carry_le
  have first := getElem?_behind _ _ _ same
  have split : bytes = (front ++ encodeUtf8 template.source ++ [closeBrace]) ++
      closeBrace :: back := by
    rw [same]
    simp
  have second := getElem?_behind _ _ _ split
  rw [List.length_append, List.length_singleton, List.length_append] at second
  rw [List.length_append] at first
  have total : width template.source = (encodeUtf8 template.source).length := rfl
  unfold scanned
  cases carried : template.carry with
  | zero =>
    simp only [pairAt, Bool.and_eq_true, decide_eq_true_eq]
    exact ⟨first, second⟩
  | succ more =>
    have one : template.carry = 1 := by omega
    obtain ⟨init, ends, -⟩ := template.source_of_carry one
    have split' : bytes = (front ++ encodeUtf8 init) ++ closeBrace ::
        (closeBrace :: closeBrace :: back) := by
      rw [same, ends, encodeUtf8_append]
      simp [encodeUtf8_cons, encodeUtf8_nil, encode_close]
    have here := getElem?_behind _ _ _ split'
    rw [List.length_append] at here
    have last : width template.source = (encodeUtf8 init).length + 1 := by
      rw [ends, width_append]
      rfl
    rw [last, show more = 0 by omega]
    simp only [pairAt, Bool.and_eq_true, decide_eq_true_eq]
    refine ⟨here, ?_⟩
    rw [← total, last] at first
    exact first

theorem scan_braces {inner : List Char} {scanned carried depth : Nat}
    (same : bytes = front ++ encodeUtf8 (['\x7b', '\x7b'] ++ inner ++ ['\x7d', '\x7d']) ++ back)
    (total : scanned + carried = width inner)
    (passed : findCloseLoop bytes (depth + 2) (front.length + 2) =
      findCloseLoop bytes (depth + 2) (front.length + 2 + scanned))
    (pair : pairAt closeBrace bytes (front.length + 2 + scanned) = true) :
    findCloseLoop bytes (depth + 1) front.length =
      findCloseLoop bytes (depth + 1) (front.length + (width inner + 4) - carried) := by
  have opens : pairAt openBrace bytes front.length = true := by
    have split : bytes = front ++ openBrace :: (openBrace :: (encodeUtf8 inner ++
        [closeBrace, closeBrace] ++ back)) := by
      rw [same]
      simp [encodeUtf8_append, encodeUtf8_cons, encodeUtf8_nil, encode_open, encode_close]
    have split' : bytes = (front ++ [openBrace]) ++ openBrace :: (encodeUtf8 inner ++
        [closeBrace, closeBrace] ++ back) := by
      rw [split]
      simp
    have first := getElem?_behind _ _ _ split
    have second := getElem?_behind _ _ _ split'
    rw [List.length_append, List.length_singleton] at second
    simp only [pairAt, Bool.and_eq_true, decide_eq_true_eq]
    exact ⟨first, second⟩
  rw [findCloseLoop_open opens, passed, findCloseLoop_close pair, if_neg (by omega)]
  congr 1
  omega

theorem width_braces (inner : List Char) :
    width (['\x7b', '\x7b'] ++ inner ++ ['\x7d', '\x7d']) = width inner + 4 := by
  have opening : width ['\x7b', '\x7b'] = 2 := rfl
  have closing : width ['\x7d', '\x7d'] = 2 := rfl
  rw [width_append, width_append, opening, closing]
  omega

theorem scan_group (before inner : Template) {depth : Nat}
    (same : bytes = front ++ encodeUtf8 (before.source ++
      (['\x7b', '\x7b'] ++ inner.source ++ ['\x7d', '\x7d'])) ++ back)
    (first : findCloseLoop bytes (depth + 1) front.length =
      findCloseLoop bytes (depth + 1) (front.length + before.scanned))
    (inside : ∀ {front back : Bytes}, bytes = front ++ encodeUtf8 inner.source ++ back →
      findCloseLoop bytes (depth + 2) front.length =
        findCloseLoop bytes (depth + 2) (front.length + inner.scanned)) :
    findCloseLoop bytes (depth + 1) front.length = findCloseLoop bytes (depth + 1)
      (front.length + (width (before.source ++
        (['\x7b', '\x7b'] ++ inner.source ++ ['\x7d', '\x7d'])) - inner.carry)) := by
  have small := inner.carry_le_width
  have split : bytes = (front ++ encodeUtf8 before.source) ++
      encodeUtf8 (['\x7b', '\x7b'] ++ inner.source ++ ['\x7d', '\x7d']) ++ back := by
    rw [same, encodeUtf8_append before.source]
    simp
  have braces : bytes = front ++ encodeUtf8 before.source ++ openBrace :: (openBrace ::
      (encodeUtf8 inner.source ++ (closeBrace :: closeBrace :: back))) := by
    rw [split]
    simp [encodeUtf8_append, encodeUtf8_cons, encodeUtf8_nil, encode_open, encode_close]
  have within : bytes = (front ++ encodeUtf8 before.source ++ [openBrace, openBrace]) ++
      encodeUtf8 inner.source ++ (closeBrace :: closeBrace :: back) := by
    rw [braces]
    simp
  have carried := scan_carry braces (by decide) (depth + 1)
  have behind := inside within
  have pair := pair_scanned within
  have length : (front ++ encodeUtf8 before.source ++ [openBrace, openBrace]).length =
      (front ++ encodeUtf8 before.source).length + 2 := by
    rw [List.length_append]
    rfl
  rw [length] at behind pair
  have total : inner.scanned + inner.carry = width inner.source := by
    rw [scanned]
    omega
  have whole := scan_braces split total behind pair
  have front' : (front ++ encodeUtf8 before.source).length = front.length + width before.source :=
    List.length_append
  rw [front'] at whole
  rw [first, carried, whole, width_append, width_braces]
  congr 1
  omega

theorem scan (template : Template) : ∀ (front back : Bytes) (depth : Nat),
    template.Fits bindings → bytes = front ++ encodeUtf8 template.source ++ back →
      findCloseLoop bytes (depth + 1) front.length =
        findCloseLoop bytes (depth + 1) (front.length + template.scanned) := by
  induction template with
  | empty =>
    intro front back depth fits same
    rfl
  | text before plain ih =>
    intro front back depth fits same
    rw [source, encodeUtf8_append] at same
    have first := ih front (encodeUtf8 plain ++ back) depth fits.1 (by rw [same]; simp)
    cases plain with
    | nil =>
      rw [first, scanned, scanned, source, carry, List.append_nil]
      rfl
    | cons char plain =>
      obtain ⟨byte, rest, encoded⟩ :=
        List.exists_cons_of_ne_nil (String.utf8EncodeChar_ne_nil (c := char))
      have noBrace := plain_text fits.2
      have next : bytes = front ++ encodeUtf8 before.source ++ byte ::
          (rest ++ encodeUtf8 plain ++ back) := by
        rw [same, encodeUtf8_cons, encoded]
        simp
      have other : byte ≠ closeBrace := by
        refine (noBrace byte ?_).2
        rw [encodeUtf8_cons, encoded]
        simp
      have split : bytes = (front ++ encodeUtf8 before.source) ++
          encodeUtf8 (char :: plain) ++ back := by
        rw [same]
        simp
      have passed := scan_plain split noBrace (depth + 1)
      rw [List.length_append] at passed
      rw [first, scan_carry next other]
      refine passed.trans ?_
      rw [scanned, source, carry, width_append]
      simp only [List.isEmpty_cons, Bool.false_eq_true, if_false]
      congr 1
      exact Nat.add_assoc ..
  | group before inner ihBefore ihInner =>
    intro front back depth fits same
    have first := ihBefore front (encodeUtf8 (['\x7b', '\x7b'] ++ inner.source ++
      ['\x7d', '\x7d']) ++ back) depth fits.1
      (by rw [same, source, encodeUtf8_append before.source]; simp)
    exact scan_group before inner same first fun within =>
      ihInner _ _ (depth + 1) fits.2.1 within
  | single before name ih =>
    intro front back depth fits same
    have first := ih front (encodeUtf8 (['\x7b'] ++ name ++ ['\x7d']) ++ back) depth fits.1
      (by rw [same, source, encodeUtf8_append before.source]; simp)
    have noBrace := plain_text fits.2.1
    have next : bytes = (front ++ encodeUtf8 before.source) ++ openBrace ::
        (encodeUtf8 name ++ closeBrace :: back) := by
      rw [same, source, encodeUtf8_append before.source]
      simp [encodeUtf8_append, encodeUtf8_cons, encodeUtf8_nil, encode_open, encode_close]
    have split : bytes = (front ++ encodeUtf8 before.source ++ [openBrace]) ++
        encodeUtf8 name ++ closeBrace :: back := by
      rw [next]
      simp
    have here := getElem?_behind _ _ _ next
    have alone : bytes[(front ++ encodeUtf8 before.source).length + 1]? ≠ some openBrace := by
      cases named : encodeUtf8 name with
      | nil =>
        rw [named, List.append_nil] at split
        have behind := getElem?_behind _ _ _ split
        rw [List.length_append, List.length_singleton] at behind
        rw [behind]
        decide
      | cons byte rest =>
        rw [named] at split noBrace
        have split' : bytes = (front ++ encodeUtf8 before.source ++ [openBrace]) ++ byte ::
            (rest ++ closeBrace :: back) := by
          rw [split]
          simp
        have behind := getElem?_behind _ _ _ split'
        rw [List.length_append, List.length_singleton] at behind
        rw [behind]
        simpa using (noBrace byte (by simp)).1
    have skip := scan_skip here (.inl alone) (depth + 1)
    have passed := scan_plain split noBrace (depth + 1)
    rw [List.length_append, List.length_singleton] at passed
    rw [List.length_append] at skip passed
    rw [first, scan_carry next (by decide)]
    refine skip.trans (passed.trans ?_)
    have closing : width ['\x7d'] = 1 := rfl
    have opening : width ['\x7b'] = 1 := rfl
    have total : scanned (.single before name) = width before.source + 1 + width name := by
      rw [scanned, source, carry, width_append, width_append, width_append, opening, closing]
      omega
    rw [total]
    congr 1
    show front.length + width before.source + 1 + width name = _
    omega
  | double before name ih =>
    intro front back depth fits same
    have first := ih front (encodeUtf8 (['\x7b', '\x7b'] ++ name ++ ['\x7d', '\x7d']) ++ back)
      depth fits.1 (by rw [same, source, encodeUtf8_append before.source]; simp)
    have bare : scanned (.text .empty name) = width name := by cases name <;> rfl
    have none_ : carry (.text .empty name) = 0 := by cases name <;> rfl
    have passed := scan_group before (.text .empty name) same first fun within => by
      rw [bare]
      exact scan_plain within (plain_text fits.2.1) (depth + 2)
    rw [none_] at passed
    exact passed

end Template

/-- The message about an output that grows too long. -/
def renderedTooLong : Bytes :=
  ofAscii "rendered command exceeds " ++ decimalText maxWorkflowCommandBytes ++ ofAscii " bytes"

theorem push_eq (rendering : Rendering) (addition : Bytes) (next : Nat) :
    rendering.push addition next =
      if rendering.out.length + addition.length ≤ maxWorkflowCommandBytes then
        .ok ({ rendering with out := rendering.out ++ addition }, next)
      else .error renderedTooLong := by
  have same : maxWorkflowCommandBytes < saturatingAdd rendering.out.length addition.length ↔
      ¬ rendering.out.length + addition.length ≤ maxWorkflowCommandBytes := by
    have limit : maxWorkflowCommandBytes < usizeValues - 1 := by decide
    rw [saturatingAdd]
    omega
  unfold Rendering.push pushRendered
  by_cases within : rendering.out.length + addition.length ≤ maxWorkflowCommandBytes
  · rw [if_pos within, if_neg (by rw [same]; exact not_not_intro within)]
    rfl
  · rw [if_neg within, if_pos (same.mpr within)]
    rfl

section

variable {text : List Char} {closes nexts : List (Option Nat)} {bindings : List (Bytes × Bytes)}

variable (text closes nexts bindings) in
/-- From one offset to another the walk emits some text, if that fits. -/
def Emits (start stop : Nat) (addition : Bytes) : Prop :=
  ∃ rounds, start + rounds ≤ stop ∧ ∀ fuel rendering,
    rendering.out.length ≤ maxWorkflowCommandBytes →
      renderLoop (encodeUtf8 text) closes nexts bindings [] (fuel + rounds) rendering start =
        if rendering.out.length + addition.length ≤ maxWorkflowCommandBytes then
          renderLoop (encodeUtf8 text) closes nexts bindings [] fuel
            { rendering with out := rendering.out ++ addition } stop
        else some (.error renderedTooLong)

theorem Emits.refl (offset : Nat) : Emits text closes nexts bindings offset offset [] := by
  refine ⟨0, Nat.le_refl _, fun fuel rendering fits => ?_⟩
  simp only [List.length_nil, Nat.add_zero, List.append_nil]
  rw [if_pos fits]

theorem Emits.append {start middle stop : Nat} {first second : Bytes}
    (front : Emits text closes nexts bindings start middle first)
    (back : Emits text closes nexts bindings middle stop second) :
    Emits text closes nexts bindings start stop (first ++ second) := by
  obtain ⟨rounds, few, ran⟩ := front
  obtain ⟨rounds', few', ran'⟩ := back
  refine ⟨rounds' + rounds, by omega, fun fuel rendering fits => ?_⟩
  rw [← Nat.add_assoc, ran (fuel + rounds') rendering fits, List.length_append]
  by_cases fitsFirst : rendering.out.length + first.length ≤ maxWorkflowCommandBytes
  · rw [if_pos fitsFirst, ran' fuel _ (by rw [List.length_append]; exact fitsFirst)]
    simp only [List.length_append, List.append_assoc, Nat.add_assoc]
  · rw [if_neg fitsFirst, if_neg (by omega)]

theorem Emits.step {start stop : Nat} {addition : Bytes} (inside : start < (encodeUtf8 text).length)
    (further : start < stop)
    (round : ∀ rendering, renderStep (encodeUtf8 text) closes nexts bindings [] rendering start =
      some (rendering.push addition stop)) :
    Emits text closes nexts bindings start stop addition := by
  refine ⟨1, further, fun fuel rendering _ => ?_⟩
  rw [renderLoop, if_pos inside, round, push_eq]
  split
  · rfl
  · rfl

theorem trim_encodeUtf8 (name : List Char) : trim (encodeUtf8 name) = boundName name := by
  rw [trim, chars, decodeUtf8_encodeUtf8]
  rfl

variable {name : List Char}

theorem boundValue_of_brace (plainNames : PlainNames bindings)
    (brace : '\x7b' ∈ name) : boundValue bindings (boundName name) = none := by
  have member : openBrace ∈ boundName name :=
    List.mem_flatMap.mpr ⟨'\x7b', mem_trimChars brace (by decide), by rw [encode_open]; simp⟩
  unfold boundValue
  rw [Option.map_eq_none_iff, List.find?_eq_none]
  intro binding listed same
  have key : binding.1 = boundName name := by simpa using same
  exact plainNames binding listed (key ▸ member)

variable {inner : Template}

theorem unbound_content (plainNames : PlainNames bindings)
    (literal_ : boundValue bindings (boundName inner.source) = none) :
    ∃ content rest, inner.source = content ++ rest ∧ width content = inner.scanned ∧
      boundValue bindings (boundName content) = none := by
  have small := inner.carry_le
  unfold Template.scanned
  cases carried : inner.carry with
  | zero => exact ⟨inner.source, [], (List.append_nil _).symm, rfl, literal_⟩
  | succ more =>
    have one : inner.carry = 1 := by omega
    obtain ⟨init, ends, brace⟩ := inner.source_of_carry one
    refine ⟨init, ['\x7d'], ends, ?_, boundValue_of_brace plainNames brace⟩
    have last : width ['\x7d'] = 1 := rfl
    rw [ends, width_append, last, show more = 0 by omega]
    rfl

variable {front back : List Char}

theorem sliceText_middle {middle : List Char} (same : text = front ++ middle ++ back) :
    sliceText (encodeUtf8 text) (width front) (width front + width middle) =
      some (encodeUtf8 middle) := by
  have split : text = front ++ (middle ++ back) := by rw [same, List.append_assoc]
  have first := between_width (middle ++ back) split
  have second := between_width back same
  rw [width_append] at second
  rw [sliceText_between (Nat.le_add_right ..) first second, same, encodeUtf8_append,
    encodeUtf8_append]
  have length : (encodeUtf8 front ++ encodeUtf8 middle).length = width front + width middle :=
    List.length_append
  rw [← length, List.take_left, width, List.drop_left]

theorem getElem?_width (same : text = front ++ char :: back) {byte : UInt8} {rest : Bytes}
    (encoded : String.utf8EncodeChar char = byte :: rest) :
    (encodeUtf8 text)[width front]? = some byte := by
  refine getElem?_behind (encodeUtf8 front) byte (rest ++ encodeUtf8 back) ?_
  rw [same, encodeUtf8_append, encodeUtf8_cons, encoded, List.cons_append]

theorem width_lt
    (same : text = front ++ char :: back) : width front < (encodeUtf8 text).length := by
  obtain ⟨byte, rest, encoded⟩ :=
    List.exists_cons_of_ne_nil (String.utf8EncodeChar_ne_nil (c := char))
  exact (List.getElem?_eq_some_iff.mp (getElem?_width same encoded)).1

theorem pairAt_braces {brace : UInt8}
    (encoded : String.utf8EncodeChar char = [brace]) (same : text = front ++ char :: char :: back) :
    pairAt brace (encodeUtf8 text) (width front) = true := by
  have first := getElem?_width same encoded
  have split : text = (front ++ [char]) ++ char :: back := by
    rw [same]
    simp
  have second := getElem?_width split encoded
  have one : width [char] = 1 := by
    rw [width, encodeUtf8_cons, encoded]
    rfl
  rw [width_append, one] at second
  simp only [pairAt, Bool.and_eq_true, decide_eq_true_eq]
  exact ⟨first, second⟩

theorem emits_plain {plain : List Char} (same : text = front ++ plain ++ back)
    (noBrace : plain.all isPlain = true) :
    Emits text closes nexts bindings (width front) (width front + width plain)
      (encodeUtf8 plain) := by
  induction plain generalizing front with
  | nil => exact Emits.refl _
  | cons char plain ih =>
    rw [List.all_cons, Bool.and_eq_true] at noBrace
    have split : text = front ++ char :: (plain ++ back) := by
      rw [same]
      simp
    have split' : text = (front ++ [char]) ++ plain ++ back := by
      rw [same]
      simp
    obtain ⟨byte, rest, encoded⟩ :=
      List.exists_cons_of_ne_nil (String.utf8EncodeChar_ne_nil (c := char))
    have here := getElem?_width split encoded
    have ordinary := plain_bytes noBrace.1 byte (by rw [encoded]; simp)
    have single : width [char] = (String.utf8EncodeChar char).length := by
      rw [width, encodeUtf8_cons, encodeUtf8_nil, List.append_nil]
    have positive : 0 < (String.utf8EncodeChar char).length := by
      rw [encoded]
      exact Nat.succ_pos _
    have noClose : ¬ pairAt closeBrace (encodeUtf8 text) (width front) = true := by
      intro pair
      simp only [pairAt, Bool.and_eq_true, decide_eq_true_eq] at pair
      rw [here, Option.some.injEq] at pair
      exact ordinary.2 pair.1
    have first : Emits text closes nexts bindings (width front)
        (width front + (String.utf8EncodeChar char).length) (String.utf8EncodeChar char) := by
      refine Emits.step (width_lt split) (by omega) fun rendering => ?_
      unfold renderStep
      rw [here]
      show (if byte = openBrace then _ else _) = _
      rw [if_neg ordinary.1, if_neg noClose]
      exact character_eq split rendering
    have later := ih split' noBrace.2
    rw [width_append, single] at later
    have both := first.append later
    rw [encodeUtf8_cons]
    have total : width (char :: plain) = (String.utf8EncodeChar char).length + width plain := by
      rw [width, encodeUtf8_cons, List.length_append]
      rfl
    rw [total, ← Nat.add_assoc]
    exact both

variable (closesLength : closes.length = (encodeUtf8 text).length)
  (closesHold : HoldsFrom closes (matchingClose (encodeUtf8 text)) 0)
  (nextsLength : nexts.length = (encodeUtf8 text).length + 1)
  (nextsHold : HoldsFrom nexts (nextClose (encodeUtf8 text)) 0)

include closesLength closesHold in
theorem closes_braces
    (same : text = front ++ (['\x7b', '\x7b'] ++ inner.source ++ ['\x7d', '\x7d']) ++ back)
    (fits : inner.Fits bindings) :
    closes[width front]? = some (some (width front + 2 + inner.scanned)) := by
  have opened : text = front ++ '\x7b' :: '\x7b' :: (inner.source ++ ['\x7d', '\x7d'] ++ back) := by
    rw [same]
    simp
  have pair := pairAt_braces encode_open opened
  have inside := width_lt opened
  have split : encodeUtf8 text = encodeUtf8 (front ++ ['\x7b', '\x7b']) ++
      encodeUtf8 inner.source ++ (closeBrace :: closeBrace :: encodeUtf8 back) := by
    rw [same]
    simp [encodeUtf8_append, encodeUtf8_cons, encodeUtf8_nil, encode_open, encode_close]
  have two : width ['\x7b', '\x7b'] = 2 := rfl
  have length : (encodeUtf8 (front ++ ['\x7b', '\x7b'])).length = width front + 2 :=
    (width_append _ _).trans (congrArg _ two)
  have passed := inner.scan _ _ 0 fits split
  have closing := Template.pair_scanned split
  rw [length] at passed closing
  rw [closesHold (width front) (Nat.zero_le _) (by omega), matchingClose, if_pos pair,
    legacyFindClose, passed, findCloseLoop_close closing]
  rfl

variable {found : Bytes}

theorem placeholder_bound {name : Bytes}
    (bound : boundValue bindings name = some found) (rendering : Rendering) (next : Nat)
    (unbound : Option (Except Bytes (Rendering × Nat))) :
    placeholder bindings [] rendering name next unbound = some (rendering.push found next) := by
  rw [placeholder, bound]

theorem placeholder_unbound {name : Bytes} (free : boundValue bindings name = none)
    (rendering : Rendering) (next : Nat) (unbound : Option (Except Bytes (Rendering × Nat))) :
    placeholder bindings [] rendering name next unbound = unbound := by
  rw [placeholder, free]
  rfl

include closesLength closesHold in
theorem renderStep_braces {content rest : List Char} (inner : Template)
    (same : text = front ++ (['\x7b', '\x7b'] ++ inner.source ++ ['\x7d', '\x7d']) ++ back)
    (fits : inner.Fits bindings) (parts : inner.source = content ++ rest)
    (length : width content = inner.scanned) (rendering : Rendering) :
    renderStep (encodeUtf8 text) closes nexts bindings [] rendering (width front) =
      placeholder bindings [] rendering (boundName content) (width front + 2 + inner.scanned + 2)
        (some (rendering.push [openBrace] (width front + 2))) := by
  have opened : text = front ++ '\x7b' :: '\x7b' :: (inner.source ++ ['\x7d', '\x7d'] ++ back) := by
    rw [same]
    simp
  have named : text = (front ++ ['\x7b', '\x7b']) ++ content ++
      (rest ++ ['\x7d', '\x7d'] ++ back) := by
    rw [same, parts]
    simp
  have slice := sliceText_middle named
  have two : width ['\x7b', '\x7b'] = 2 := rfl
  rw [width_append, two, length] at slice
  have here := getElem?_width opened encode_open
  have pair := pairAt_braces encode_open opened
  have close := closes_braces closesLength closesHold same fits
  unfold renderStep
  rw [here, Option.bind_eq_bind, Option.bind_some, if_pos rfl, if_pos pair, close,
    Option.bind_eq_bind, Option.bind_some]
  dsimp only
  rw [slice, Option.bind_eq_bind, Option.bind_some, trim_encodeUtf8]

include closesLength closesHold in
theorem emits_open (plainNames : PlainNames bindings)
    (same : text = front ++ (['\x7b', '\x7b'] ++ inner.source ++ ['\x7d', '\x7d']) ++ back)
    (fits : inner.Fits bindings) (literal_ : boundValue bindings (boundName inner.source) = none) :
    Emits text closes nexts bindings (width front) (width front + 2) [openBrace] := by
  have opened : text = front ++ '\x7b' :: '\x7b' :: (inner.source ++ ['\x7d', '\x7d'] ++ back) := by
    rw [same]
    simp
  obtain ⟨content, rest, parts, length, free⟩ := unbound_content plainNames literal_
  refine Emits.step (width_lt opened) (by omega) fun rendering => ?_
  rw [renderStep_braces closesLength closesHold inner same fits parts length,
    placeholder_unbound free]

theorem emits_close (same : text = front ++ '\x7d' :: '\x7d' :: back) :
    Emits text closes nexts bindings (width front) (width front + 2) [closeBrace] := by
  have here := getElem?_width same encode_close
  have pair := pairAt_braces encode_close same
  refine Emits.step (width_lt same) (by omega) fun rendering => ?_
  unfold renderStep
  rw [here, Option.bind_eq_bind, Option.bind_some, if_neg (by decide), if_pos pair]

include closesLength closesHold in
theorem emits_double (same : text = front ++ (['\x7b', '\x7b'] ++ name ++ ['\x7d', '\x7d']) ++ back)
    (noBrace : name.all isPlain = true)
    (bound : boundValue bindings (boundName name) = some found) :
    Emits text closes nexts bindings (width front) (width front + (width name + 4)) found := by
  have opened : text = front ++ '\x7b' :: '\x7b' :: (name ++ ['\x7d', '\x7d'] ++ back) := by
    rw [same]
    simp
  have bare : Template.scanned (.text .empty name) = width name := by cases name <;> rfl
  have fits : (Template.text .empty name).Fits bindings := ⟨trivial, noBrace⟩
  refine Emits.step (width_lt opened) (by omega) fun rendering => ?_
  rw [renderStep_braces closesLength closesHold (.text .empty name) same fits
    (List.append_nil name).symm bare.symm, placeholder_bound bound, bare]
  congr 2
  omega

include nextsLength nextsHold in
theorem emits_single (same : text = front ++ (['\x7b'] ++ name ++ ['\x7d']) ++ back)
    (noBrace : name.all isPlain = true)
    (bound : boundValue bindings (boundName name) = some found) :
    Emits text closes nexts bindings (width front) (width front + (width name + 2)) found := by
  have one : width ['\x7b'] = 1 := rfl
  have opened : text = front ++ '\x7b' :: (name ++ ['\x7d'] ++ back) := by
    rw [same]
    simp
  have named : text = (front ++ ['\x7b']) ++ name ++ (['\x7d'] ++ back) := by
    rw [same]
    simp
  have closed : text = (front ++ ['\x7b'] ++ name) ++ '\x7d' :: back := by
    rw [same]
    simp
  have here := getElem?_width opened encode_open
  have slice := sliceText_middle named
  have stop := getElem?_width closed encode_close
  rw [width_append, one] at slice
  rw [width_append, width_append, one] at stop
  -- The bytes between the braces are the name's.
  have inName (place : Nat) (start : width front + 1 ≤ place)
      (before : place < width front + 1 + width name) :
      ∃ byte, (encodeUtf8 text)[place]? = some byte ∧ byte ≠ openBrace ∧ byte ≠ closeBrace := by
    have split : encodeUtf8 text = encodeUtf8 (front ++ ['\x7b']) ++ (encodeUtf8 name ++
        encodeUtf8 (['\x7d'] ++ back)) := by
      rw [named, encodeUtf8_append, encodeUtf8_append, List.append_assoc]
    have length : (encodeUtf8 (front ++ ['\x7b'])).length = width front + 1 :=
      (width_append _ _).trans (congrArg _ one)
    have inside : place - (width front + 1) < (encodeUtf8 name).length := by
      have total : (encodeUtf8 name).length = width name := rfl
      omega
    refine ⟨(encodeUtf8 name)[place - (width front + 1)], ?_,
      plain_text noBrace _ (List.getElem_mem inside)⟩
    rw [split, List.getElem?_append_right (by omega), length, List.getElem?_append_left inside,
      List.getElem?_eq_getElem inside]
  have next : nextClose (encodeUtf8 text) (width front + 1) =
      some (width front + 1 + width name) := by
    refine nextClose_eq_some.mpr ⟨by omega, stop, fun place start before found => ?_⟩
    obtain ⟨byte, read, -, other⟩ := inName place start before
    rw [read, Option.some.injEq] at found
    exact other found
  have noPair : ¬ pairAt openBrace (encodeUtf8 text) (width front) = true := by
    intro pair
    simp only [pairAt, Bool.and_eq_true, decide_eq_true_eq] at pair
    by_cases blank : width name = 0
    · rw [blank, Nat.add_zero, pair.2, Option.some.injEq] at stop
      exact absurd stop (by decide)
    · obtain ⟨byte, read, other, -⟩ := inName (width front + 1) (Nat.le_refl _) (by omega)
      rw [pair.2, Option.some.injEq] at read
      exact other read.symm
  have inside := width_lt opened
  refine Emits.step inside (by omega) fun rendering => ?_
  unfold renderStep
  rw [here, Option.bind_eq_bind, Option.bind_some, if_pos rfl, if_neg noPair,
    nextsHold (width front + 1) (Nat.zero_le _) (by omega), next, Option.bind_eq_bind,
    Option.bind_some]
  dsimp only
  rw [slice, Option.bind_eq_bind, Option.bind_some, trim_encodeUtf8, placeholder_bound bound]
  congr 2
  omega

include closesLength closesHold nextsLength nextsHold in
theorem emits_template (plainNames : PlainNames bindings) (template : Template) :
    ∀ front back, template.Fits bindings → text = front ++ template.source ++ back →
      Emits text closes nexts bindings (width front) (width front + width template.source)
        (template.value bindings) := by
  induction template with
  | empty =>
    intro front back fits same
    exact Emits.refl _
  | text before plain ih =>
    intro front back fits same
    have first := ih front (plain ++ back) fits.1 (by rw [same, Template.source]; simp)
    have split : text = (front ++ before.source) ++ plain ++ back := by
      rw [same, Template.source]
      simp
    have second : Emits text closes nexts bindings _ _ _ := emits_plain split fits.2
    rw [width_append] at second
    rw [Template.source, width_append, ← Nat.add_assoc]
    exact first.append second
  | group before inner ihBefore ihInner =>
    intro front back fits same
    have first := ihBefore front (['\x7b', '\x7b'] ++ inner.source ++ ['\x7d', '\x7d'] ++ back)
      fits.1 (by rw [same, Template.source]; simp)
    have split : text = (front ++ before.source) ++
        (['\x7b', '\x7b'] ++ inner.source ++ ['\x7d', '\x7d']) ++ back := by
      rw [same, Template.source]
      simp
    have opening : Emits text closes nexts bindings _ _ _ :=
      emits_open closesLength closesHold plainNames split fits.2.1 fits.2.2
    have within := ihInner (front ++ before.source ++ ['\x7b', '\x7b'])
      (['\x7d', '\x7d'] ++ back) fits.2.1 (by rw [split]; simp)
    have closed : text = (front ++ before.source ++ ['\x7b', '\x7b'] ++ inner.source) ++
        '\x7d' :: '\x7d' :: back := by
      rw [split]
      simp
    have closing : Emits text closes nexts bindings _ _ _ := emits_close closed
    have two : width ['\x7b', '\x7b'] = 2 := rfl
    simp only [width_append, two] at opening within closing
    have whole := first.append ((opening.append within).append closing)
    rw [Template.source, width_append, Template.width_braces]
    have total : width front + (width before.source + (width inner.source + 4)) =
        width front + width before.source + 2 + width inner.source + 2 := by omega
    rw [total]
    exact whole
  | single before name ih =>
    intro front back fits same
    have first := ih front (['\x7b'] ++ name ++ ['\x7d'] ++ back) fits.1
      (by rw [same, Template.source]; simp)
    have split : text = (front ++ before.source) ++ (['\x7b'] ++ name ++ ['\x7d']) ++ back := by
      rw [same, Template.source]
      simp
    obtain ⟨found, bound⟩ := Option.isSome_iff_exists.mp fits.2.2
    have second : Emits text closes nexts bindings _ _ _ :=
      emits_single nextsLength nextsHold split fits.2.1 bound
    rw [width_append] at second
    have one : width ['\x7b'] = 1 ∧ width ['\x7d'] = 1 := ⟨rfl, rfl⟩
    have total : width front + width (before.source ++ (['\x7b'] ++ name ++ ['\x7d'])) =
        width front + width before.source + (width name + 2) := by
      rw [width_append, width_append, width_append, one.1, one.2]
      omega
    rw [Template.source, total, Template.value, bound, Option.getD_some]
    exact first.append second
  | double before name ih =>
    intro front back fits same
    have first := ih front (['\x7b', '\x7b'] ++ name ++ ['\x7d', '\x7d'] ++ back) fits.1
      (by rw [same, Template.source]; simp)
    have split : text = (front ++ before.source) ++
        (['\x7b', '\x7b'] ++ name ++ ['\x7d', '\x7d']) ++ back := by
      rw [same, Template.source]
      simp
    obtain ⟨found, bound⟩ := Option.isSome_iff_exists.mp fits.2.2
    have second : Emits text closes nexts bindings _ _ _ :=
      emits_double closesLength closesHold split fits.2.1 bound
    rw [width_append] at second
    rw [Template.source, width_append, Template.width_braces, Template.value, bound,
      Option.getD_some, ← Nat.add_assoc]
    exact first.append second

end

theorem substitute_template {bindings : List (Bytes × Bytes)} (plainNames : PlainNames bindings)
    {template : Template} (fits : template.Fits bindings)
    (short : width template.source ≤ maxWorkflowCommandBytes) :
    substitute (encodeUtf8 template.source) bindings =
      some (if (template.value bindings).length ≤ maxWorkflowCommandBytes then
        .ok (template.value bindings) else .error renderedTooLong) := by
  obtain ⟨closes, ranCloses, closesLength, closesHold⟩ :=
    matchingDoubleBraceCloses_holds (encodeUtf8 template.source)
  obtain ⟨nexts, ranNexts, nextsLength, nextsHold⟩ :=
    nextClosingBraces_holds (encodeUtf8 template.source)
  obtain ⟨rounds, few, ran⟩ := emits_template closesLength closesHold nextsLength nextsHold
    plainNames template [] [] fits (by simp)
  have zero : width [] = 0 := rfl
  rw [zero, Nat.zero_add] at ran
  rw [zero, Nat.zero_add] at few
  have loop := ran ((encodeUtf8 template.source).length - rounds) ⟨[], []⟩ (Nat.zero_le _)
  have total : (encodeUtf8 template.source).length - rounds + rounds =
      (encodeUtf8 template.source).length := by
    have length : (encodeUtf8 template.source).length = width template.source := rfl
    omega
  rw [total, List.length_nil, Nat.zero_add, List.nil_append] at loop
  have long : ¬ maxWorkflowCommandBytes < (encodeUtf8 template.source).length :=
    Nat.not_lt.mpr short
  unfold substitute renderTemplate
  rw [if_neg long, ranCloses, ranNexts]
  show Option.map _ (renderLoop _ _ _ _ _ _ _ _) = _
  rw [loop]
  have ended (fuel : Nat) (rendering : Rendering) :
      renderLoop (encodeUtf8 template.source) closes nexts bindings [] fuel rendering
        (width template.source) = some (.ok rendering) := by
    have length : ¬ width template.source < (encodeUtf8 template.source).length := Nat.lt_irrefl _
    cases fuel <;> rw [renderLoop, if_neg length]
  rw [ended]
  split <;> rfl

end JtermCore.Workflows
