import JtermCore.PtyInput.Confined

/-!
# The guard behind the encoder

The encoder removes the spellings of markers that text can have.  The guard
also removes the raw C1 spellings, whose first byte may be the last byte of
some other character.  A paste passes the guard unchanged exactly when its
text has none of these.
-/

namespace JtermCore.PtyInput

open Bytes ExecutionJournal Utf8 Words

/-- The spellings that only the guard looks for. -/
def rawMarkers : List Bytes := [c1PasteStart, c1PasteEnd]

variable {body : Bytes}

theorem free_markers_iff (free : Free textMarkers body) :
    Free markers body ↔ Free rawMarkers body := by
  constructor
  · intro clean
    exact clean.of_subset (by decide)
  · intro raw word member
    have known : ∀ word ∈ markers, word ∈ textMarkers ∨ word ∈ rawMarkers := by decide
    rcases known word member with text | bytes
    · exact free word text
    · exact raw word bytes

theorem terminatorLenAtEnd_pasteEnd (front : Bytes) :
    terminatorLenAtEnd (front ++ pasteEnd) = some pasteEnd.length := by
  have ends : pasteEnd.isSuffixOf (front ++ pasteEnd) = true :=
    List.isSuffixOf_iff_suffix.mpr (List.suffix_append front pasteEnd)
  simp only [terminatorLenAtEnd, lenAtEnd, closers, List.find?_cons, ends]
  rfl

theorem submitLen_pasteEnd (front : Bytes) (policy : PastePolicy) :
    submitLen true (front ++ pasteEnd ++ submission policy) = (submission policy).length := by
  rcases submission_cases policy with none_ | some_
  · have last : (front ++ pasteEnd).getLast? = some tilde := by
      rw [List.getLast?_append]
      rfl
    rw [none_, List.append_nil, submitLen, last]
    rfl
  · rw [some_, submitLen, List.getLast?_concat, List.dropLast_concat, endsWithTerminator,
      terminatorLenAtEnd_pasteEnd]
    rfl

theorem openingMarkerLen_pasteStart (rest : Bytes) :
    openingMarkerLen (pasteStart ++ rest) = some pasteStart.length :=
  lenAtStart_marker openers_subset (by decide) rest

variable {kill : Bytes}

section

variable (optional : kill = [] ∨ kill = [killLine])

include optional

theorem killPrefixLen_pasteStart
    (rest : Bytes) : killPrefixLen false (kill ++ (pasteStart ++ rest)) = kill.length := by
  rcases optional with rfl | rfl
  · rfl
  · have opens : (openingMarkerLen (([killLine] ++ (pasteStart ++ rest)).drop 1)).isSome =
        true := by
      change (openingMarkerLen (pasteStart ++ rest)).isSome = true
      rw [openingMarkerLen_pasteStart]
      rfl
    unfold killPrefixLen
    rw [opens]
    rfl

theorem filter_framed (body : Bytes) (modes : PasteModes) (policy : PastePolicy) :
    InputGuard.new.filter (kill ++ (pasteStart ++ (body ++ pasteEnd ++ submission policy)))
        modes policy =
      (InputGuard.new,
        (scanLoop (kill ++ pasteStart) [] body).elim
          (kill ++ (pasteStart ++ (body ++ pasteEnd ++ submission policy)))
          (· ++ (pasteEnd ++ submission policy))) := by
  generalize dataEq : kill ++ (pasteStart ++ (body ++ pasteEnd ++ submission policy)) = data
  have nonempty : ¬ data.isEmpty = true := by
    rw [← dataEq]
    simp [pasteStart]
  have killed : killPrefixLen false data = kill.length := by
    rw [← dataEq]
    exact killPrefixLen_pasteStart optional _
  have opened : openingMarkerLen (data.drop kill.length) = some pasteStart.length := by
    rw [← dataEq, List.drop_left]
    exact openingMarkerLen_pasteStart _
  have submitted : submitLen true data = (submission policy).length := by
    rw [← dataEq]
    have read := submitLen_pasteEnd (kill ++ pasteStart ++ body) policy
    simpa only [List.append_assoc] using read
  have frame : data.take (data.length - (submission policy).length) =
      kill ++ pasteStart ++ body ++ pasteEnd := by
    have regrouped : data = (kill ++ pasteStart ++ body ++ pasteEnd) ++ submission policy := by
      rw [← dataEq]
      simp
    rw [regrouped, List.length_append, Nat.add_sub_cancel, List.take_left]
  have lengths : data.length - (submission policy).length - pasteEnd.length =
      (kill ++ pasteStart ++ body).length := by
    rw [← dataEq]
    simp only [List.length_append]
    omega
  have parts : data = (kill ++ pasteStart ++ body) ++ (pasteEnd ++ submission policy) := by
    rw [← dataEq]
    simp
  have start : kill.length + pasteStart.length = (kill ++ pasteStart).length := by
    rw [List.length_append]
  have inside : ((data.take (kill ++ pasteStart ++ body).length).drop
      (kill ++ pasteStart).length) = body := by rw [parts, List.take_left, List.drop_left]
  have head : data.take (kill ++ pasteStart).length = kill ++ pasteStart := by
    rw [parts, List.append_assoc (kill ++ pasteStart), List.take_left]
  have behind : data.drop (kill ++ pasteStart ++ body).length = pasteEnd ++ submission policy := by
    rw [parts, List.drop_left]
  unfold InputGuard.filter
  rw [if_neg nonempty]
  simp only [InputGuard.new, killed, opened, Option.isSome_some, Bool.or_true, submitted, frame,
    terminatorLenAtEnd_pasteEnd, Bool.and_true, if_true, Option.getD_some, Option.elim_some,
    lengths, start, inside, head, behind]
  cases scanLoop (kill ++ pasteStart) [] body <;> rfl

theorem heads_of_optional :
    kill ++ pasteStart ∈ heads := by rcases optional with rfl | rfl <;> decide

theorem filter_framed_iff (body : Bytes) (modes : PasteModes) (policy : PastePolicy) :
    InputGuard.new.filter (kill ++ (pasteStart ++ (body ++ pasteEnd ++ submission policy)))
        modes policy =
      (InputGuard.new, kill ++ (pasteStart ++ (body ++ pasteEnd ++ submission policy))) ↔
      Free markers body := by
  have clear := heads_endsClear _ (heads_of_optional optional)
  rw [filter_framed optional body modes policy]
  rcases scanLoop_spec clear body (free_nil markers_nonempty) with
    ⟨free, unchanged⟩ | ⟨marked, clean, changed, -, shorter⟩
  · rw [unchanged]
    exact iff_of_true rfl free
  · rw [changed]
    refine iff_of_false (fun same => ?_) marked
    have lengths := congrArg (fun result => result.2.length) same
    simp only [Option.elim_some, List.length_append, List.length_nil] at lengths shorter
    omega

end

variable {text : List Char}

section

variable (free : Free textMarkers (encodeUtf8 text))

include free

theorem openingMarkerLen_text (policy : PastePolicy) :
    openingMarkerLen (encodeUtf8 text ++ submission policy) = none := by
  refine lenAtStart_none.mpr fun word member begins => ?_
  have known : ∀ word ∈ openers, word ∈ textMarkers ∨ word = c1PasteStart := by decide
  rcases known word member with spelled | rfl
  · exact free_append_plain textMarkers_subset free (tilde_not_submission policy) word spelled
      begins.isInfix
  · obtain ⟨rest, same⟩ := begins
    cases text with
    | nil =>
      rcases submission_cases policy with none_ | some_
      · simp [none_, encodeUtf8_nil, c1PasteStart] at same
      · simp [some_, encodeUtf8_nil, c1PasteStart, carriageReturn] at same
    | cons char text =>
      obtain ⟨lead, tail, encoded⟩ :=
        List.exists_cons_of_ne_nil (String.utf8EncodeChar_ne_nil (c := char))
      have starts := isContinuation_head encoded
      rw [encodeUtf8_cons, encoded] at same
      have leadEq : 0x9b = lead := (List.cons.inj same).1
      rw [← leadEq] at starts
      exact absurd starts (by decide)

theorem killPrefixLen_text (policy : PastePolicy) :
    killPrefixLen false (encodeUtf8 text ++ submission policy) = 0 := by
  unfold killPrefixLen
  refine if_neg fun killed => ?_
  simp only [Bool.not_false, Bool.true_and, Bool.and_eq_true, decide_eq_true_eq] at killed
  obtain ⟨first, opens⟩ := killed
  cases text with
  | nil =>
    rcases submission_cases policy with none_ | some_
    · simp [none_, encodeUtf8_nil] at first
    · simp [some_, encodeUtf8_nil, carriageReturn, killLine] at first
  | cons char text =>
    obtain ⟨lead, tail, encoded⟩ :=
      List.exists_cons_of_ne_nil (String.utf8EncodeChar_ne_nil (c := char))
    rw [encodeUtf8_cons, encoded] at first
    have leadEq : lead = killLine := by simpa using first
    have alone : String.utf8EncodeChar char = [killLine] := by
      have member : killLine ∈ String.utf8EncodeChar char := by
        rw [encoded, leadEq]
        exact List.mem_cons_self
      exact (encodeChar_ascii member (by decide)).2
    have later : Free textMarkers (encodeUtf8 text) := by
      rw [encodeUtf8_cons] at free
      exact free.of_infix List.infix_append_right
    rw [encodeUtf8_cons, alone, List.append_assoc] at opens
    change (openingMarkerLen (encodeUtf8 text ++ submission policy)).isSome = true at opens
    rw [openingMarkerLen_text later policy] at opens
    cases opens

theorem filter_unframed (nonempty : text ≠ []) (modes : PasteModes) (policy : PastePolicy) :
    InputGuard.new.filter (encodeUtf8 text ++ submission policy) modes policy =
      (InputGuard.new,
        applyMultilinePolicy
          ((scanLoop [] [] (encodeUtf8 text ++ submission policy)).getD
            (encodeUtf8 text ++ submission policy)) modes policy) := by
  have killed := killPrefixLen_text free policy
  have unopened := openingMarkerLen_text free policy
  have filled : ¬ (encodeUtf8 text ++ submission policy).isEmpty = true := by
    simp [encodeUtf8_eq_nil, nonempty]
  unfold InputGuard.filter
  rw [if_neg filled]
  simp only [InputGuard.new, killed, List.drop_zero, unopened, Option.isSome_none, Bool.or_false,
    Bool.false_and, Bool.false_eq_true, if_false, Option.elim_none, List.take_length,
    List.take_zero]
  cases scanLoop [] [] (encodeUtf8 text ++ submission policy) with
  | none => rfl
  | some out => simp

end

variable {modes : PasteModes}

theorem applyMultilinePolicy_length (data : Bytes)
    (unbracketed : modes.bracketed = false) (policy : PastePolicy) :
    (applyMultilinePolicy data modes policy).length ≤ data.length := by
  unfold applyMultilinePolicy
  simp only [unbracketed, Bool.false_eq_true, if_false]
  generalize (if data.getLast?.any isLineBreak then data.dropLast else data) = body
  cases body.any isLineBreak with
  | false => exact Nat.le_refl _
  | true =>
    cases policy.unbracketedMultiline with
    | firstLineOnly => exact (List.takeWhile_prefix _).length_le
    | sendVerbatim => exact Nat.le_refl _

variable {policy : PastePolicy}

theorem applyMultilinePolicy_line {line : Bytes} (unbracketed : modes.bracketed = false)
    (oneLine : policy.unbracketedMultiline = .firstLineOnly → line.any isLineBreak = false) :
    applyMultilinePolicy (line ++ submission policy) modes policy = line ++ submission policy := by
  cases multiline : policy.unbracketedMultiline with
  | sendVerbatim =>
    unfold applyMultilinePolicy
    simp only [unbracketed, multiline, Bool.false_eq_true, if_false, ite_self]
  | firstLineOnly =>
    have plain := oneLine multiline
    have body : (if (line ++ submission policy).getLast?.any isLineBreak then
        (line ++ submission policy).dropLast else line ++ submission policy) = line := by
      rcases submission_cases policy with none_ | some_
      · rw [none_, List.append_nil]
        refine if_neg fun breaks => ?_
        obtain ⟨last, found, isBreak⟩ := (Option.any_eq_true _ _).mp breaks
        rw [List.any_eq_false] at plain
        exact plain last (List.mem_of_getLast? found) isBreak
      · rw [some_, List.getLast?_concat, List.dropLast_concat]
        rfl
    unfold applyMultilinePolicy
    simp only [body, plain, Bool.not_false, if_true]

theorem any_isLineBreak (noReturn : '\r' ∉ text) (noNewline : '\n' ∉ text) :
    (encodeUtf8 text).any isLineBreak = false := by
  rw [List.any_eq_false]
  intro byte member breaks
  obtain ⟨char, inside, encoded⟩ := List.mem_flatMap.mp member
  simp only [isLineBreak, Bool.or_eq_true, decide_eq_true_eq] at breaks
  rcases breaks with rfl | rfl
  · have same : char = '\r' := Char.toNat_inj.mp (encodeChar_ascii encoded (by decide)).1
    exact noReturn (same ▸ inside)
  · have same : char = '\n' := Char.toNat_inj.mp (encodeChar_ascii encoded (by decide)).1
    exact noNewline (same ▸ inside)

theorem filter_unframed_iff (free : Free textMarkers (encodeUtf8 text)) (nonempty : text ≠ [])
    (unbracketed : modes.bracketed = false)
    (oneLine : policy.unbracketedMultiline = .firstLineOnly →
      (encodeUtf8 text).any isLineBreak = false) :
    InputGuard.new.filter (encodeUtf8 text ++ submission policy) modes policy =
        (InputGuard.new, encodeUtf8 text ++ submission policy) ↔
      Free markers (encodeUtf8 text) := by
  have clear : EndsClear markers [] := heads_endsClear [] (by decide)
  rw [filter_unframed free nonempty modes policy]
  rcases scanLoop_spec clear (encodeUtf8 text ++ submission policy)
    (free_nil markers_nonempty) with
    ⟨clean, unchanged⟩ | ⟨marked, out, changed, -, shorter⟩
  · rw [unchanged, Option.getD_none, applyMultilinePolicy_line unbracketed oneLine]
    rw [List.nil_append] at clean
    exact iff_of_true rfl (clean.of_infix List.infix_append_left)
  · rw [changed, Option.getD_some, List.nil_append]
    refine iff_of_false (fun same => ?_) fun clean => marked ?_
    · have lengths := congrArg (fun result => result.2.length) same
      have bound := applyMultilinePolicy_length out unbracketed policy
      simp only [List.length_nil] at lengths shorter
      omega
    · rw [List.nil_append]
      exact free_append_plain (List.Subset.refl _) clean (tilde_not_submission policy)

@[simp]
theorem editorBytes_admitByte (state : Admission) (byte : UInt8) :
    (state.admitByte byte).result.editorBytes = state.result.editorBytes ++ [byte] := by
  unfold Admission.admitByte
  dsimp only
  repeat' split
  all_goals rfl

@[simp]
theorem editorBytes_admitBytes (text : Bytes) :
    ∀ state : Admission,
      (state.admitBytes text).result.editorBytes = state.result.editorBytes ++ text := by
  induction text with
  | nil => exact fun _ => (List.append_nil _).symm
  | cons byte text ih =>
    intro state
    rw [Admission.admitBytes, List.foldl_cons]
    refine (ih _).trans ?_
    rw [editorBytes_admitByte, List.append_assoc]
    rfl

@[simp]
theorem editorBytes_frame (state : Admission) (inFrame : Bool) :
    (state.frame inFrame).result.editorBytes = state.result.editorBytes :=
  rfl

theorem admitAll_kill (optional : kill = [] ∨ kill = [killLine])
    (state : Admission) (rest : Bytes) :
    admitAll state (kill ++ rest) = admitAll (state.admitBytes kill) rest := by
  rcases optional with rfl | rfl
  · rfl
  · exact admitAll_byte state (unmarked_killLine rest)

theorem free_submission (policy : PastePolicy) : Free markers (submission policy) := by
  rcases submission_cases policy with none_ | some_
  · rw [none_]
    decide
  · rw [some_]
    decide

theorem editorBytes_framed (optional : kill = [] ∨ kill = [killLine])
    (free : Free markers body) (policy : PastePolicy) :
    (admittedInput (kill ++ (pasteStart ++ (body ++ pasteEnd ++ submission policy)))
        false).editorBytes = kill ++ body ++ submission policy := by
  have whole : ¬ Split markers body (pasteEnd ++ submission policy) :=
    (startsClear_cons (Or.inl rfl) _).not_split body
  have read (state : Admission) :
      (admitAll state (kill ++ (pasteStart ++ (body ++ pasteEnd ++ submission policy)))
        ).result.editorBytes = state.result.editorBytes ++ (kill ++ body ++ submission policy) := by
    rw [admitAll_kill optional, admitAll_opener _ (by decide), List.append_assoc,
      admitAll_free body _ _ free whole, admitAll_closer _ (by decide),
      admitAll_last (free_submission policy)]
    simp
  exact read _

theorem editorBytes_unframed {data : Bytes} (free : Free markers data) :
    (admittedInput data false).editorBytes = data := by
  have read (state : Admission) : (admitAll state data).result.editorBytes =
      state.result.editorBytes ++ data := by
    rw [admitAll_last free]
    simp
  exact read _

def Transparent (modes : PasteModes) (policy : PastePolicy) (kill : Bytes) (paste : Paste) :
    Prop :=
  InputGuard.new.filter paste.bytes modes policy = (InputGuard.new, paste.bytes) ∧
    (admittedInput paste.bytes false).editorBytes =
      if paste.bytes.isEmpty then []
      else kill ++ encodeUtf8 paste.echoText ++ submission policy

variable {paste : Paste}

theorem transparent_nil (nothing : paste.bytes = []) : Transparent modes policy kill paste := by
  unfold Transparent
  rw [nothing]
  exact ⟨rfl, rfl⟩

/-- The Ctrl+U in front of a command as text. -/
def killText : Bytes → List Char
  | [] => []
  | _ :: _ => ['\x15']

theorem encodeUtf8_killText (optional : kill = [] ∨ kill = [killLine]) :
    encodeUtf8 (killText kill) = kill := by rcases optional with rfl | rfl <;> rfl

theorem free_behind_kill {words : List Bytes} (spelled : words ⊆ markers)
    (optional : kill = [] ∨ kill = [killLine]) : Free words (kill ++ body) ↔ Free words body := by
  have clear : EndsClear markers kill := by
    rcases optional with rfl | rfl <;> exact endsClear_of_take (by decide)
  have alone : Free markers kill := by rcases optional with rfl | rfl <;> decide
  rw [free_append]
  refine ⟨fun free => free.2.1, fun free => ⟨alone.of_subset spelled, free, ?_⟩⟩
  exact (clear.of_subset spelled).not_split body

theorem Encoded.transparent_iff (encoded : Encoded modes policy kill paste) :
    Transparent modes policy kill paste ↔ Free markers (encodeUtf8 paste.echoText) := by
  have optional : kill = [] ∨ kill = [killLine] := encoded.kill_eq.imp id And.left
  by_cases empty : paste.echoText = []
  · have unkilled : kill = [] := encoded.kill_eq.resolve_right fun killed => killed.2 empty
    have nothing : paste.bytes = [] := by
      rw [encoded.bytes, unkilled, empty]
      rfl
    rw [empty]
    exact iff_of_true (transparent_nil nothing) (free_nil markers_nonempty)
  have framed := encoded.bytes
  rw [frameBody_eq modes policy (mt encodeUtf8_eq_nil.mp empty)] at framed
  have filled : paste.bytes.isEmpty = false := by
    rw [framed]
    simp [encodeUtf8_eq_nil, empty]
  unfold Transparent
  rw [filled, if_neg Bool.false_ne_true]
  cases bracketed : modes.bracketed with
  | true =>
    have bytes : paste.bytes = kill ++ (pasteStart ++
        (encodeUtf8 paste.echoText ++ pasteEnd ++ submission policy)) := by
      rw [framed, opening, closing, bracketed]
      simp
    rw [bytes, filter_framed_iff optional]
    exact ⟨And.left, fun free => ⟨free, editorBytes_framed optional free policy⟩⟩
  | false =>
    have bytes : paste.bytes =
        encodeUtf8 (killText kill ++ paste.echoText) ++ submission policy := by
      rw [framed, opening, closing, bracketed, encodeUtf8_append, encodeUtf8_killText optional]
      simp
    have encodedText : encodeUtf8 (killText kill ++ paste.echoText) =
        kill ++ encodeUtf8 paste.echoText := by rw [encodeUtf8_append, encodeUtf8_killText optional]
    have free : Free textMarkers (encodeUtf8 (killText kill ++ paste.echoText)) := by
      rw [encodedText]
      exact (free_behind_kill textMarkers_subset optional).mpr encoded.free
    have unbroken : ∀ char, char = '\r' ∨ char = '\n' → char ∉ killText kill := by
      intro char breaks
      rcases optional with rfl | rfl
      · exact List.not_mem_nil
      · rcases breaks with rfl | rfl <;> decide
    have oneLine : policy.unbracketedMultiline = .firstLineOnly →
        (encodeUtf8 (killText kill ++ paste.echoText)).any isLineBreak = false := by
      intro first
      refine any_isLineBreak ?_ ?_
      · simp [unbroken, encoded.folded]
      · simp [unbroken, encoded.oneLine bracketed first]
    have passed := filter_unframed_iff free (by simp [empty]) bracketed oneLine
    rw [encodedText, free_behind_kill (List.Subset.refl _) optional] at passed
    rw [bytes, encodedText, passed]
    refine ⟨And.left, fun clean => ⟨clean, editorBytes_unframed ?_⟩⟩
    refine free_append_plain (List.Subset.refl _) ?_ (tilde_not_submission policy)
    exact (free_behind_kill (List.Subset.refl _) optional).mpr clean

theorem free_cutNewline {kept sent : List Char} (cut : sent = kept ∨ sent = kept ++ ['\n']) :
    Free rawMarkers (encodeUtf8 kept) ↔ Free rawMarkers (encodeUtf8 sent) := by
  rcases cut with rfl | rfl
  · rfl
  · rw [encodeUtf8_append]
    refine ⟨fun free => free_append_plain (by decide) free (by decide), fun free => ?_⟩
    exact free.of_infix List.infix_append_left

def refused [Libraries] (body : List Char) : Bool :=
  containsNoncontrolVisualSpoofing body || maxReviewInputBytes < (encodeUtf8 body).length

theorem encodePromptInsert_text [Libraries] {command : List Char}
    (ran : encodePaste command modes policy = some paste) (clearLineFirst : Bool) :
    ∃ inserted, encodePromptInsert command modes policy clearLineFirst = some inserted ∧
      if paste.risk.hadVisualSpoofing || paste.risk.exceededReviewLimit then inserted.bytes = []
      else inserted.echoText = paste.echoText := by
  unfold encodePromptInsert
  rw [ran]
  simp only [Option.bind_eq_bind, Option.bind_some]
  split
  · exact ⟨_, rfl, rfl⟩
  split
  · exact ⟨_, rfl, rfl⟩
  · exact ⟨_, rfl, rfl⟩

/-- A paste passes the guard and reaches the editor as the encoder made it if
and only if no raw C1 marker stands in the text that is left to send. -/
theorem paste_transparent_iff [Libraries] (text : List Char) (modes : PasteModes)
    (policy : PastePolicy) :
    ∃ body hadMarker hadControls,
      defang (normalizeNewlines text) policy.stripControls =
        some (body, hadMarker, hadControls) ∧
      (∃ paste, encodePaste text modes policy = some paste ∧
        (Transparent modes policy [] paste ↔
          Free rawMarkers (encodeUtf8 (sentPart modes policy body)))) ∧
      ∀ clearLineFirst, ∃ paste,
        encodePromptInsert text modes policy clearLineFirst = some paste ∧
        (Transparent modes policy (if clearLineFirst then [killLine] else []) paste ↔
          refused body = true ∨ Free rawMarkers (encodeUtf8 (sentPart modes policy body))) := by
  obtain ⟨body, hadMarker, hadControls, cleaned, -, -⟩ :=
    defang_clean (normalizeNewlines text) policy.stripControls
  obtain ⟨kept, risk, ran, cut, spoofing, limit⟩ := encodePaste_eq cleaned modes
  obtain ⟨paste, ran', encoded⟩ := encodePaste_encoded text modes policy
  obtain rfl := Option.some.inj (ran.symm.trans ran')
  have sent := free_cutNewline cut
  rw [← free_markers_iff encoded.free] at sent
  refine ⟨body, hadMarker, hadControls, cleaned, ⟨_, ran, encoded.transparent_iff.trans sent⟩,
    fun clearLineFirst => ?_⟩
  obtain ⟨inserted, kill, insertedRan, insertedEncoded, killed⟩ :=
    encodePromptInsert_encoded text modes policy clearLineFirst
  obtain ⟨inserted', insertedRan', same⟩ := encodePromptInsert_text ran clearLineFirst
  obtain rfl := Option.some.inj (insertedRan.symm.trans insertedRan')
  have refusedEq : (risk.hadVisualSpoofing || risk.exceededReviewLimit) = refused body := by
    rw [spoofing, limit]
    rfl
  simp only [refusedEq] at same
  refine ⟨inserted, insertedRan, ?_⟩
  cases rejects : refused body with
  | true =>
    rw [rejects, if_pos rfl] at same
    exact iff_of_true (transparent_nil same) (Or.inl rfl)
  | false =>
    rw [rejects, if_neg Bool.false_ne_true] at same
    simp only [Bool.false_eq_true, false_or]
    have iff := insertedEncoded.transparent_iff
    rw [same] at iff
    rcases killed with nothing | rfl
    · -- Nothing is sent, so nothing is in the text either.
      have empty := iff.mp (transparent_nil nothing)
      exact iff_of_true (transparent_nil nothing) (sent.mp empty)
    · exact iff.trans sent

/-- A character that ends with the byte 9B, in front of the rest of a closer. -/
def rawCloserText : List Char := ['\u00db', '2', '0', '1', '~']

/-- The guard takes the raw closer out of the middle of a character. -/
theorem rawCloserText_not_transparent :
    let _ := plainLibraries
    let policy : PastePolicy := ⟨.firstLineOnly, true, false⟩
    encodePaste rawCloserText ⟨true⟩ policy =
        some ⟨pasteStart ++ encodeUtf8 rawCloserText ++ pasteEnd, rawCloserText,
          ⟨1, 6, false, false, false, false, false⟩⟩ ∧
      (InputGuard.new.filter (pasteStart ++ encodeUtf8 rawCloserText ++ pasteEnd) ⟨true⟩
        policy).2 = pasteStart ++ [0xc3] ++ pasteEnd ∧
      (admittedInput (pasteStart ++ encodeUtf8 rawCloserText ++ pasteEnd) false).editorBytes =
        [0xc3] ∧
      pasteStart ++ [0xc3] ++ pasteEnd ≠ pasteStart ++ encodeUtf8 rawCloserText ++ pasteEnd := by
  decide +kernel

end JtermCore.PtyInput
