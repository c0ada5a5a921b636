import JtermCore.Bytes
import JtermCore.Checked

/-!
# Matching braces of a template

The tables that `render_template` computes ahead: the close of every `{{` and
the next `}` from every offset, each filled from the end of the template.  The
scan that they replace steps from one pair of braces to the next and counts the
depth.
-/

namespace JtermCore.Workflows

open Checked

def openBrace : UInt8 := 0x7b

def closeBrace : UInt8 := 0x7d

def pairAt (brace : UInt8) (bytes : Bytes) (offset : Nat) : Bool :=
  bytes[offset]? = some brace && bytes[offset + 1]? = some brace

inductive DoubleBraceToken where
  | open (offset : Nat)
  | close (offset : Nat)
deriving DecidableEq

def nextTokenAt (bytes : Bytes) (table : List (Option DoubleBraceToken)) (offset : Nat) :
    Option (Option DoubleBraceToken) :=
  if pairAt openBrace bytes offset then some (some (.open offset))
  else if pairAt closeBrace bytes offset then some (some (.close offset))
  else table[offset + 1]?

/-- The first loop of `matching_double_brace_closes`. -/
def nextTokens (bytes : Bytes) : Option (List (Option DoubleBraceToken)) :=
  (List.range bytes.length).reverse.foldlM (fun table offset => do
    let token ← nextTokenAt bytes table offset
    setAt table offset token) (List.replicate (bytes.length + 1) none)

/-- The close of a virtual opener in front of an offset. -/
def firstCloseAt (tokens : List (Option DoubleBraceToken)) (table : List (Option Nat))
    (offset : Nat) : Option (Option Nat) := do
  match ← tokens[offset]? with
  | none => return none
  | some (.close close) => return some close
  | some (.open opener) =>
    match ← table[opener + 2]? with
    | none => return none
    | some nestedClose => table[nestedClose + 2]?

def firstCloses (bytes : Bytes) (tokens : List (Option DoubleBraceToken)) :
    Option (List (Option Nat)) := (List.range bytes.length).reverse.foldlM (fun table offset => do
    let close ← firstCloseAt tokens table offset
    setAt table offset close) (List.replicate (bytes.length + 1) none)

def matchingDoubleBraceCloses (bytes : Bytes) : Option (List (Option Nat)) := do
  let tokens ← nextTokens bytes
  let closes ← firstCloses bytes tokens
  (List.range (bytes.length - 1)).foldlM (fun table offset =>
    if pairAt openBrace bytes offset then do
      let close ← closes[offset + 2]?
      setAt table offset close
    else some table) (List.replicate bytes.length none)

def nextCloseAt (bytes : Bytes) (table : List (Option Nat)) (offset : Nat) : Option (Option Nat) :=
  if bytes[offset]? = some closeBrace then some (some offset) else table[offset + 1]?

def nextClosingBraces (bytes : Bytes) : Option (List (Option Nat)) :=
  (List.range bytes.length).reverse.foldlM (fun table offset => do
    let next ← nextCloseAt bytes table offset
    setAt table offset next) (List.replicate (bytes.length + 1) none)

def findCloseLoop (bytes : Bytes) (depth offset : Nat) : Option Nat :=
  if offset + 1 < bytes.length then
    if pairAt openBrace bytes offset then findCloseLoop bytes (depth + 1) (offset + 2)
    else if pairAt closeBrace bytes offset then
      if depth - 1 = 0 then some offset else findCloseLoop bytes (depth - 1) (offset + 2)
    else findCloseLoop bytes depth (offset + 1)
  else none
termination_by bytes.length - offset

def legacyFindClose (bytes : Bytes) (start : Nat) : Option Nat := findCloseLoop bytes 1 start

variable {bytes : Bytes}

variable {offset : Nat}

theorem pairAt_lt {brace : UInt8} (pair : pairAt brace bytes offset = true) :
    offset + 1 < bytes.length := by
  simp only [pairAt, Bool.and_eq_true, decide_eq_true_eq] at pair
  exact (List.getElem?_eq_some_iff.mp pair.2).1

theorem not_pairAt_both (opens : pairAt openBrace bytes offset = true) :
    pairAt closeBrace bytes offset = false := by
  simp only [pairAt, Bool.and_eq_true, decide_eq_true_eq] at opens
  simp [pairAt, opens.1, openBrace, closeBrace]

variable {depth : Nat}

theorem findCloseLoop_end (end_ : ¬ offset + 1 < bytes.length) :
    findCloseLoop bytes depth offset = none := by rw [findCloseLoop, if_neg end_]

theorem findCloseLoop_open (opens : pairAt openBrace bytes offset = true) :
    findCloseLoop bytes depth offset = findCloseLoop bytes (depth + 1) (offset + 2) := by
  rw [findCloseLoop, if_pos (pairAt_lt opens), if_pos opens]

theorem findCloseLoop_close (closes : pairAt closeBrace bytes offset = true) :
    findCloseLoop bytes depth offset =
      if depth - 1 = 0 then some offset else findCloseLoop bytes (depth - 1) (offset + 2) := by
  have other : ¬ pairAt openBrace bytes offset = true := by
    intro opens
    rw [not_pairAt_both opens] at closes
    cases closes
  rw [findCloseLoop, if_pos (pairAt_lt closes), if_neg other, if_pos closes]

theorem findCloseLoop_other (noOpen : ¬ pairAt openBrace bytes offset = true)
    (noClose : ¬ pairAt closeBrace bytes offset = true) :
    findCloseLoop bytes depth offset = findCloseLoop bytes depth (offset + 1) := by
  by_cases inside : offset + 1 < bytes.length
  · rw [findCloseLoop, if_pos inside, if_neg noOpen, if_neg noClose]
  · rw [findCloseLoop_end inside, findCloseLoop_end (by omega)]

theorem findCloseLoop_found {close : Nat} (found : findCloseLoop bytes depth offset = some close) :
    offset ≤ close ∧ pairAt closeBrace bytes close = true := by
  induction depth, offset using findCloseLoop.induct bytes with
  | case1 depth offset inside opens ih =>
    rw [findCloseLoop_open opens] at found
    have later := ih found
    exact ⟨by omega, later.2⟩
  | case2 depth offset inside noOpen closes last =>
    rw [findCloseLoop_close closes, if_pos last] at found
    cases found
    exact ⟨Nat.le_refl _, closes⟩
  | case3 depth offset inside noOpen closes more ih =>
    rw [findCloseLoop_close closes, if_neg more] at found
    have later := ih found
    exact ⟨by omega, later.2⟩
  | case4 depth offset inside noOpen noClose ih =>
    rw [findCloseLoop_other noOpen noClose] at found
    have later := ih found
    exact ⟨by omega, later.2⟩
  | case5 depth offset end_ =>
    rw [findCloseLoop_end end_] at found
    cases found

theorem findCloseLoop_succ (depth offset : Nat) :
    findCloseLoop bytes (depth + 2) offset =
      (findCloseLoop bytes 1 offset).bind fun close => findCloseLoop bytes (depth + 1)
        (close + 2) := by
  generalize left : bytes.length - offset = fuel
  induction fuel using Nat.strongRecOn generalizing depth offset with
  | ind fuel ih =>
    by_cases inside : offset + 1 < bytes.length
    · by_cases opens : pairAt openBrace bytes offset = true
      · have both := ih (bytes.length - (offset + 2)) (by omega)
        -- The nested pair is closed first, at either depth.
        rw [findCloseLoop_open opens, findCloseLoop_open opens, both (depth + 1) (offset + 2) rfl,
          both 0 (offset + 2) rfl]
        cases found : findCloseLoop bytes 1 (offset + 2) with
        | none => rfl
        | some close =>
          have behind := findCloseLoop_found found
          exact ih (bytes.length - (close + 2)) (by omega) depth (close + 2) rfl
      by_cases closes : pairAt closeBrace bytes offset = true
      · rw [findCloseLoop_close closes, findCloseLoop_close closes, if_neg (by omega), if_pos rfl]
        rfl
      · rw [findCloseLoop_other opens closes, findCloseLoop_other opens closes]
        exact ih _ (by omega) depth (offset + 1) rfl
    · rw [findCloseLoop_end inside, findCloseLoop_end inside]
      rfl

def firstToken (bytes : Bytes) (offset : Nat) : Option DoubleBraceToken :=
  if offset < bytes.length then
    if pairAt openBrace bytes offset then some (.open offset)
    else if pairAt closeBrace bytes offset then some (.close offset)
    else firstToken bytes (offset + 1)
  else none
termination_by bytes.length - offset

/-- The cells of a table from an offset on. -/
def HoldsFrom {α : Type} (table : List α) (value : Nat → α) (start : Nat) : Prop :=
  ∀ place, start ≤ place → place < table.length → table[place]? = some (value place)

theorem fillBack {α : Type} {size : Nat} {entry : List α → Nat → Option α} {initial : α}
    {value : Nat → α} (last : value size = initial)
    (each : ∀ offset < size, ∀ table, table.length = size + 1 →
      HoldsFrom table value (offset + 1) → entry table offset = some (value offset)) :
    Yields ((List.range size).reverse.foldlM (fun table offset => do
        let cell ← entry table offset
        setAt table offset cell) (List.replicate (size + 1) initial))
      fun table => table.length = size + 1 ∧ HoldsFrom table value 0 := by
  refine Yields.countDown (fun offset table =>
    table.length = size + 1 ∧ HoldsFrom table value offset) ?_ ?_
  · rintro offset below table ⟨length, holds⟩
    have inside : offset < table.length := by omega
    rw [each offset below table length holds]
    refine ⟨_, setAt_eq inside _, by rw [List.length_set, length], ?_⟩
    intro place start within
    rw [List.length_set] at within
    by_cases here : place = offset
    · rw [here, List.getElem?_set_self inside]
    · rw [List.getElem?_set_ne (Ne.symm here)]
      exact holds place (by omega) within
  · refine ⟨List.length_replicate, fun place start within => ?_⟩
    rw [List.length_replicate] at within
    have only : place = size := by omega
    rw [List.getElem?_replicate, if_pos within, only, last]

theorem nextTokens_holds (bytes : Bytes) : Yields (nextTokens bytes) fun table =>
      table.length = bytes.length + 1 ∧ HoldsFrom table (firstToken bytes) 0 := by
  apply fillBack
  · rw [firstToken, if_neg (Nat.lt_irrefl _)]
  · intro offset below table length holds
    rw [firstToken, if_pos below, nextTokenAt]
    split
    · rfl
    split
    · rfl
    · exact holds (offset + 1) (Nat.le_refl _) (by omega)

theorem findCloseLoop_token (depth offset : Nat) : findCloseLoop bytes depth offset =
      match firstToken bytes offset with
      | none => none
      | some (.open opener) => findCloseLoop bytes (depth + 1) (opener + 2)
      | some (.close close) =>
        if depth - 1 = 0 then some close else findCloseLoop bytes (depth - 1) (close + 2) := by
  induction offset using firstToken.induct bytes with
  | case1 offset inside opens =>
    rw [firstToken, if_pos inside, if_pos opens, findCloseLoop_open opens]
  | case2 offset inside noOpen closes =>
    rw [firstToken, if_pos inside, if_neg noOpen, if_pos closes, findCloseLoop_close closes]
  | case3 offset inside noOpen noClose ih =>
    rw [firstToken, if_pos inside, if_neg noOpen, if_neg noClose,
      findCloseLoop_other noOpen noClose]
    exact ih
  | case4 offset end_ =>
    rw [firstToken, if_neg end_, findCloseLoop_end (by omega)]

theorem firstToken_open {opener : Nat} (found : firstToken bytes offset = some (.open opener)) :
    offset ≤ opener ∧ pairAt openBrace bytes opener = true := by
  induction offset using firstToken.induct bytes with
  | case1 offset inside opens =>
    rw [firstToken, if_pos inside, if_pos opens] at found
    cases found
    exact ⟨Nat.le_refl _, opens⟩
  | case2 offset inside noOpen closes =>
    rw [firstToken, if_pos inside, if_neg noOpen, if_pos closes] at found
    cases found
  | case3 offset inside noOpen noClose ih =>
    rw [firstToken, if_pos inside, if_neg noOpen, if_neg noClose] at found
    have later := ih found
    exact ⟨by omega, later.2⟩
  | case4 offset end_ =>
    rw [firstToken, if_neg end_] at found
    cases found

theorem firstCloses_holds {tokens : List (Option DoubleBraceToken)}
    (length : tokens.length = bytes.length + 1) (holds : HoldsFrom tokens (firstToken bytes) 0) :
    Yields (firstCloses bytes tokens) fun table =>
      table.length = bytes.length + 1 ∧ HoldsFrom table (findCloseLoop bytes 1) 0 := by
  apply fillBack
  · rw [findCloseLoop_end (by omega)]
  · intro offset below table sized later
    unfold firstCloseAt
    rw [holds offset (Nat.zero_le _) (by omega), findCloseLoop_token]
    cases found : firstToken bytes offset with
    | none => rfl
    | some token =>
      cases token with
      | close close => rfl
      | «open» opener =>
        have opens := firstToken_open found
        have inside := pairAt_lt opens.2
        have nested : table[opener + 2]? = some (findCloseLoop bytes 1 (opener + 2)) :=
          later (opener + 2) (by omega) (by omega)
        show (table[opener + 2]? >>= _) = _
        rw [nested]
        dsimp only
        rw [findCloseLoop_succ 0 (opener + 2)]
        cases nestedFound : findCloseLoop bytes 1 (opener + 2) with
        | none => rfl
        | some nestedClose =>
          have behind := findCloseLoop_found nestedFound
          have within := pairAt_lt behind.2
          exact later (nestedClose + 2) (by omega) (by omega)

def matchingClose (bytes : Bytes) (offset : Nat) : Option Nat :=
  if pairAt openBrace bytes offset then legacyFindClose bytes (offset + 2) else none

theorem matchingDoubleBraceCloses_holds (bytes : Bytes) :
    Yields (matchingDoubleBraceCloses bytes) fun table =>
      table.length = bytes.length ∧ HoldsFrom table (matchingClose bytes) 0 := by
  apply Yields.bind (nextTokens_holds bytes)
  rintro tokens ⟨tokensLength, tokensHold⟩
  apply Yields.bind (firstCloses_holds tokensLength tokensHold)
  rintro closes ⟨closesLength, closesHold⟩
  refine (Yields.countUp (fun offset table => table.length = bytes.length ∧
    ∀ place < bytes.length, table[place]? =
      some (if place < offset then matchingClose bytes place else none)) ?_ ?_).mono ?_
  · rintro offset below table ⟨length, holds⟩
    have inside : offset < table.length := by omega
    split
    · rename_i opens
      have close : closes[offset + 2]? = some (findCloseLoop bytes 1 (offset + 2)) :=
        closesHold (offset + 2) (Nat.zero_le _) (by omega)
      rw [close]
      refine ⟨_, setAt_eq inside _, by rw [List.length_set, length], fun place within => ?_⟩
      by_cases here : place = offset
      · rw [here, List.getElem?_set_self inside, if_pos (Nat.lt_succ_self _), matchingClose,
          if_pos opens]
        rfl
      · rw [List.getElem?_set_ne (Ne.symm here), holds place within]
        congr 1
        simp only [show place < offset + 1 ↔ place < offset by omega]
    · rename_i closed
      refine .pure ⟨length, fun place within => ?_⟩
      rw [holds place within]
      by_cases here : place = offset
      · rw [here, if_neg (Nat.lt_irrefl _), if_pos (Nat.lt_succ_self _), matchingClose,
          if_neg closed]
      · simp only [show place < offset + 1 ↔ place < offset by omega]
  · refine ⟨List.length_replicate, fun place within => ?_⟩
    rw [List.getElem?_replicate, if_pos within, if_neg (Nat.not_lt_zero _)]
  · rintro table ⟨length, holds⟩
    refine ⟨length, fun place _ within => ?_⟩
    rw [holds place (by omega)]
    split
    · rfl
    · rename_i beyond
      have closed : ¬ pairAt openBrace bytes place = true := by
        intro opens
        have inside := pairAt_lt opens
        omega
      rw [matchingClose, if_neg closed]

def nextClose (bytes : Bytes) (offset : Nat) : Option Nat :=
  ((bytes.drop offset).findIdx? (· = closeBrace)).map (offset + ·)

theorem nextClosingBraces_holds (bytes : Bytes) : Yields (nextClosingBraces bytes) fun table =>
      table.length = bytes.length + 1 ∧ HoldsFrom table (nextClose bytes) 0 := by
  apply fillBack
  · simp [nextClose]
  · intro offset below table length holds
    unfold nextCloseAt nextClose
    rw [List.drop_eq_getElem_cons below, List.findIdx?_cons, List.getElem?_eq_getElem below]
    by_cases here : bytes[offset] = closeBrace
    · simp [here]
    · rw [if_neg (by simpa using here), holds (offset + 1) (Nat.le_refl _) (by omega)]
      simp only [here, decide_false, Bool.false_eq_true, if_false, nextClose, Option.map_map]
      congr 2
      funext distance
      simp only [Function.comp_apply]
      omega

theorem nextClose_eq_some {close : Nat} : nextClose bytes offset = some close ↔
    offset ≤ close ∧ bytes[close]? = some closeBrace ∧
      ∀ place, offset ≤ place → place < close → bytes[place]? ≠ some closeBrace := by
  simp only [nextClose, Option.map_eq_some_iff, List.findIdx?_eq_some_iff_getElem,
    decide_eq_true_eq,
    List.getElem_drop, List.length_drop]
  constructor
  · rintro ⟨distance, ⟨inside, here, before⟩, rfl⟩
    refine ⟨Nat.le_add_right .., List.getElem?_eq_some_iff.mpr ⟨by omega, here⟩, ?_⟩
    intro place start earlier found
    obtain ⟨within, same⟩ := List.getElem?_eq_some_iff.mp found
    refine before (place - offset) (by omega) ?_
    simp only [Nat.add_sub_cancel' start]
    exact same
  · rintro ⟨start, found, before⟩
    obtain ⟨within, same⟩ := List.getElem?_eq_some_iff.mp found
    refine ⟨close - offset, ⟨by omega, ?_, ?_⟩, Nat.add_sub_cancel' start⟩
    · simp only [Nat.add_sub_cancel' start]
      exact same
    · intro distance earlier here
      exact before (offset + distance) (by omega) (by omega)
        (List.getElem?_eq_some_iff.mpr ⟨by omega, here⟩)

end JtermCore.Workflows
