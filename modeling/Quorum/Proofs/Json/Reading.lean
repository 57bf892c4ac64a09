import Mathlib.Data.List.TakeWhile
import Quorum.Json.Value

/-!
# Values that are written and read

A value that has been written is read back as it was (`Json.parse_render`), so that no two values
have the same text.  The proof goes the way of the text.  `Json.toTokens` says which tokens a value
is written with; the text of a value is cut into just these, whatever stands behind it
(`Json.spells_render`), and the reader builds the value from them, whatever is still open around it
(`Json.reads_toTokens`).
-/

namespace Quorum.Json

/-! ## From characters to tokens -/

/-- Nothing stands here by which a number or a word could go on. -/
structure Delimited (rest : List Char) : Prop where
  number : goesOn isNumeric rest = false
  word : goesOn Char.isAlpha rest = false

/-- The text is cut into the given tokens, and what stands behind it is cut on its own. -/
def Spells (text : List Char) (tokens : List Token) : Prop :=
  ∀ rest, Delimited rest →
    tokensFrom .between (text ++ rest) = (tokensFrom .between rest).map (tokens ++ ·)

variable
    {text text' rest : List Char}
    {tokens tokens' : List Token}
    {c : Char}
    {token : Token}

theorem delimited_nil : Delimited [] := ⟨rfl, rfl⟩

theorem delimited_mark (mark : punctuation c = some token) : Delimited (c :: rest) := by
  unfold punctuation at mark
  split at mark
  any_goals exact ⟨rfl, rfl⟩
  cases mark

theorem tokensFrom_mark (mark : punctuation c = some token) :
    tokensFrom .between (c :: rest) = (tokensFrom .between rest).map (token :: ·) := by
  unfold punctuation at mark
  split at mark
  any_goals
    cases mark
    exact (Option.map_eq_bind ..).symm
  cases mark

namespace Spells

theorem nil : Spells [] [] := fun _ _ => Option.map_id'.symm

theorem append
    (spells : Spells text tokens)
    (spells' : Spells text' tokens')
    (apart : ∀ rest, Delimited rest → Delimited (text' ++ rest)) :
    Spells (text ++ text') (tokens ++ tokens') := by
  intro rest delimited
  rw [List.append_assoc, spells _ (apart rest delimited), spells' rest delimited, Option.map_map]
  congr 1
  funext tail
  exact (List.append_assoc ..).symm

theorem mark (mark : punctuation c = some token) : Spells [c] [token] :=
  fun _ _ => tokensFrom_mark mark

/-- A text goes on behind a mark. -/
theorem mark_append
    (mark : punctuation c = some token)
    (spells : Spells text tokens) :
    Spells (c :: text) (token :: tokens) := by
  intro rest delimited
  rw [List.cons_append, tokensFrom_mark mark, spells rest delimited, Option.map_map]
  rfl

/-- A mark ends whatever stands before it. -/
theorem append_mark
    (spells : Spells text tokens)
    (mark : punctuation c = some token)
    (spells' : Spells text' tokens') :
    Spells (text ++ c :: text') (tokens ++ token :: tokens') :=
  spells.append (mark_append mark spells') fun _ _ => delimited_mark mark

end Spells

/-! ### Words and numbers -/

/-- A word ends where no letter follows. -/
theorem spells_word
    (run : List Char)
    (cut : ∀ rest, tokensFrom .between (text ++ rest) =
      if goesOn Char.isAlpha rest then tokensFrom (.inWord run) rest
      else (tokensFrom .between rest).bind fun tail => some (token :: tail)) :
    Spells text [token] := by
  intro rest delimited
  rw [cut, delimited.word]
  exact (Option.map_eq_bind ..).symm

theorem spells_null : Spells ['n', 'u', 'l', 'l'] [.null] :=
  spells_word ['l', 'l', 'u', 'n'] fun _ => rfl

theorem spells_true : Spells ['t', 'r', 'u', 'e'] [.bool true] :=
  spells_word ['e', 'u', 'r', 't'] fun _ => rfl

theorem spells_false : Spells ['f', 'a', 'l', 's', 'e'] [.bool false] :=
  spells_word ['e', 's', 'l', 'a', 'f'] fun _ => rfl

theorem isNumeric_of_isDigit (digit : c.isDigit = true) : isNumeric c = true := by
  simp [isNumeric, digit]

/-- A number is read to its end. -/
theorem tokensFrom_inNumber
    {run : List Char}
    (numeric : ∀ c ∈ text, isNumeric c = true)
    (delimited : Delimited rest) :
    tokensFrom (.inNumber run) (c :: text ++ rest) =
      (numberOf (run.reverse ++ c :: text)).bind fun value =>
        (tokensFrom .between rest).map (.number value :: ·) := by
  induction text generalizing c run with
  | nil =>
      have cut : tokensFrom (.inNumber run) (c :: rest) =
          if goesOn isNumeric rest then tokensFrom (.inNumber (c :: run)) rest
          else (numberOf (c :: run).reverse).bind fun value =>
            (tokensFrom .between rest).bind fun tail => some (.number value :: tail) := rfl
      rw [delimited.number, List.reverse_cons] at cut
      simp only [Option.map_eq_bind]
      exact cut
  | cons next text ih =>
      obtain ⟨belongs, others⟩ := List.forall_mem_cons.mp numeric
      have cut : tokensFrom (.inNumber run) (c :: next :: text ++ rest) =
          if isNumeric next then tokensFrom (.inNumber (c :: run)) (next :: text ++ rest)
          else (numberOf (c :: run).reverse).bind fun value =>
            (tokensFrom .between (next :: text ++ rest)).bind fun tail =>
              some (.number value :: tail) := rfl
      rw [cut, if_pos belongs, ih others, List.reverse_cons, List.append_assoc]
      rfl

theorem digits_of_lt {value : Nat} (small : value < 10) : digits value = [Nat.digitChar value] :=
  Nat.toDigits_of_lt_base small

theorem digits_of_le {value : Nat} (large : 10 ≤ value) :
    digits value = digits (value / 10) ++ [Nat.digitChar (value % 10)] :=
  Nat.toDigits_of_base_le (by decide) large

/-- Zero apart, no number is written with a zero in front. -/
theorem head?_digits {value : Nat} (positive : 0 < value) :
    (digits value).head? ≠ some '0' := by
  induction value using Nat.strongRecOn with
  | ind value ih =>
      rcases Nat.lt_or_ge value 10 with small | large
      · have nonzero : ∀ digit < 10, 0 < digit → Nat.digitChar digit ≠ '0' := by decide
        rw [digits_of_lt small]
        intro front
        exact nonzero value small positive (Option.some.inj front)
      · have ne : digits (value / 10) ≠ [] := Nat.toDigits_ne_nil
        have front := ih (value / 10) (by omega) (by omega)
        obtain ⟨first, others, written⟩ := List.exists_cons_of_ne_nil ne
        rw [digits_of_le large, written]
        rw [written] at front
        exact front

theorem isDigit_of_mem_digits {value : Nat} (written : c ∈ digits value) : c.isDigit = true :=
  Nat.isDigit_of_mem_toDigits (by decide) (by decide) written

theorem isWholePart_digits {value : Nat} : isWholePart (digits value) = true := by
  rcases Nat.eq_zero_or_pos value with rfl | positive
  · rfl
  have ne : digits value ≠ [] := Nat.toDigits_ne_nil
  have front := head?_digits positive
  cases written : digits value with
  | nil => exact absurd written ne
  | cons first others =>
      rw [written] at front
      unfold isWholePart
      split
      · simp_all
      · rfl
      · simp_all

theorem decimal_digits {value : Nat} : decimal (digits value) = value :=
  Nat.ofDigitChars_ten_toDigits

theorem numberOf_digits {value : Nat} : numberOf (digits value) = some (some value) := by
  have belong : ∀ c ∈ digits value, c.isDigit = true := fun _ => isDigit_of_mem_digits
  have whole : (digits value).takeWhile Char.isDigit = digits value :=
    List.takeWhile_eq_self_iff.mpr belong
  have rest : (digits value).dropWhile Char.isDigit = [] :=
    List.dropWhile_eq_nil_iff.mpr belong
  unfold numberOf
  split
  · next body written =>
      have : ('-').isDigit = true := belong _ (written ▸ List.mem_cons_self)
      cases this
  · simp only [whole, rest, isWholePart_digits, decimal_digits]
    rfl

theorem punctuation_of_isDigit (digit : c.isDigit = true) : punctuation c = none := by
  unfold punctuation
  split
  any_goals cases digit
  rfl

theorem isBlank_of_isDigit (digit : c.isDigit = true) : isBlank c = false := by
  refine Bool.eq_false_iff.mpr fun blank => ?_
  simp only [isBlank, Bool.or_eq_true, beq_iff_eq] at blank
  rcases blank with ((rfl | rfl) | rfl) | rfl <;> cases digit

/-- A number begins with a digit. -/
theorem tokensFrom_digit
    (digit : c.isDigit = true)
    (numeric : ∀ c ∈ text, isNumeric c = true)
    (delimited : Delimited rest) :
    tokensFrom .between (c :: text ++ rest) =
      (numberOf (c :: text)).bind fun value =>
        (tokensFrom .between rest).map (.number value :: ·) := by
  have cut : ∀ rest, tokensFrom .between (c :: rest) =
      if goesOn isNumeric rest then tokensFrom (.inNumber [c]) rest
      else (numberOf [c]).bind fun value =>
        (tokensFrom .between rest).bind fun tail => some (.number value :: tail) := by
    intro rest
    have unquoted : (c == '"') = false := by
      refine beq_eq_false_iff_ne.mpr ?_
      rintro rfl
      cases digit
    simp only [tokensFrom, isBlank_of_isDigit digit, unquoted, punctuation_of_isDigit digit,
      isNumeric_of_isDigit digit]
    rfl
  cases text with
  | nil =>
      simp only [Option.map_eq_bind]
      rw [List.cons_append, List.nil_append, cut, delimited.number]
      rfl
  | cons next text =>
      obtain ⟨belongs, others⟩ := List.forall_mem_cons.mp numeric
      have goes : goesOn isNumeric (next :: text ++ rest) = true := belongs
      rw [List.cons_append, cut, if_pos goes, tokensFrom_inNumber others delimited]
      rfl

theorem spells_digits {value : Nat} : Spells (digits value) [.number (some value)] := by
  intro rest delimited
  have belong : ∀ c ∈ digits value, c.isDigit = true := fun _ => isDigit_of_mem_digits
  have ne : digits value ≠ [] := Nat.toDigits_ne_nil
  have number : numberOf (digits value) = some (some value) := numberOf_digits
  obtain ⟨first, others, written⟩ := List.exists_cons_of_ne_nil ne
  rw [written] at number belong ⊢
  obtain ⟨digit, others⟩ := List.forall_mem_cons.mp belong
  rw [tokensFrom_digit digit (fun c within => isNumeric_of_isDigit (others c within)) delimited,
    number]
  rfl

/-! ### Strings -/

theorem codeUnit_hexOf {n : Nat} (control : n < 0x20) :
    codeUnit '0' '0' (hexOf (n / 16)) (hexOf (n % 16)) = some n := by
  revert n
  decide

namespace Draft

variable {draft : Draft}

theorem pushUnit_control {n : Nat} (control : n < 0x20) :
    draft.pushUnit n = draft.push (Char.ofNat n) := by
  unfold pushUnit
  rw [if_neg (by omega), if_neg (by omega)]

end Draft

/-- An escaped character is read as the character. -/
theorem tokensFrom_escape {draft : Draft} :
    tokensFrom (.inString draft) (escape c ++ rest) =
      tokensFrom (.inString (draft.push c)) rest := by
  unfold escape
  split
  case h_8 quote backslash _ _ _ _ _ =>
    split
    · next control =>
        have cut : tokensFrom (.inString draft)
            (['\\', 'u', '0', '0', hexOf (c.toNat / 16), hexOf (c.toNat % 16)] ++ rest) =
          (codeUnit '0' '0' (hexOf (c.toNat / 16)) (hexOf (c.toNat % 16))).bind fun unit =>
            tokensFrom (.inString (draft.pushUnit unit)) rest := rfl
        rw [cut, codeUnit_hexOf control, Option.bind_some, Draft.pushUnit_control control,
          Char.ofNat_toNat]
    · next plain =>
        rw [List.cons_append, List.nil_append, tokensFrom]
        · have other : c ≠ '\\' := backslash
          simp [plain, other]
        · exact quote
        · exact fun _ _ _ _ _ is_backslash => absurd is_backslash backslash
        · exact fun _ _ is_backslash => absurd is_backslash backslash
  all_goals rfl

/-- The text of a string is read to the closing quote. -/
theorem tokensFrom_flatMap_escape {read : List Char} :
    tokensFrom (.inString ⟨some read, none⟩) (text.flatMap escape ++ '"' :: rest) =
      (tokensFrom .between rest).map
        (.string (some (String.ofList (read.reverse ++ text))) :: ·) := by
  induction text generalizing read with
  | nil =>
      rw [List.append_nil, Option.map_eq_bind]
      rfl
  | cons next text ih =>
      have pushed : Draft.push ⟨some read, none⟩ next = ⟨some (next :: read), none⟩ := rfl
      rw [List.flatMap_cons, List.append_assoc, tokensFrom_escape, pushed, ih, List.reverse_cons,
        List.append_assoc]
      rfl

theorem spells_quote {string : String} : Spells (quote string) [.string (some string)] := by
  intro rest _
  have cut : tokensFrom .between (quote string ++ rest) =
      tokensFrom (.inString ⟨some [], none⟩)
        ((string.toList.flatMap escape ++ ['"']) ++ rest) := rfl
  rw [cut, List.append_assoc, List.singleton_append, tokensFrom_flatMap_escape,
    List.reverse_nil, List.nil_append, String.ofList_toList]
  rfl

/-! ### Values -/

mutual

/-- The tokens a value is written with. -/
def toTokens : Json → List Token
  | .null => [.null]
  | .bool value => [.bool value]
  | .number value => [.number (some value)]
  | .string text => [.string (some text)]
  | .array items => .openBracket :: itemTokens items ++ [.closeBracket]
  | .object fields => .openBrace :: fieldTokens fields ++ [.closeBrace]
  | .unusable => [.null]

/-- The tokens items are written with. -/
def itemTokens : List Json → List Token
  | [] => []
  | item :: rest =>
      match rest with
      | [] => item.toTokens
      | _ => item.toTokens ++ .comma :: itemTokens rest

/-- The tokens fields are written with. -/
def fieldTokens : List (String × Json) → List Token
  | [] => []
  | (name, value) :: rest =>
      match rest with
      | [] => .string (some name) :: .colon :: value.toTokens
      | _ => .string (some name) :: .colon :: value.toTokens ++ .comma :: fieldTokens rest

end

theorem spells_field {name : String} (spells : Spells text tokens) :
    Spells (quote name ++ ':' :: text) (.string (some name) :: .colon :: tokens) :=
  spells_quote.append_mark rfl spells

mutual

/-- The text of a value is cut into the tokens it is written with. -/
theorem spells_render : (json : Json) → Spells json.render json.toTokens
  | .null => by unfold render toTokens; exact spells_null
  | .bool true => by unfold render toTokens; exact spells_true
  | .bool false => by unfold render toTokens; exact spells_false
  | .number _ => by unfold render toTokens; exact spells_digits
  | .string _ => by unfold render toTokens; exact spells_quote
  | .array items => by
      unfold render toTokens
      exact .mark_append rfl ((spells_renderItems items).append_mark rfl .nil)
  | .object fields => by
      unfold render toTokens
      exact .mark_append rfl ((spells_renderFields fields).append_mark rfl .nil)
  | .unusable => by unfold render toTokens; exact spells_null

theorem spells_renderItems : (items : List Json) → Spells (renderItems items) (itemTokens items)
  | [] => by unfold renderItems itemTokens; exact .nil
  | [item] => by unfold renderItems itemTokens; exact spells_render item
  | item :: next :: rest => by
      unfold renderItems itemTokens
      exact (spells_render item).append_mark rfl (spells_renderItems (next :: rest))

theorem spells_renderFields :
    (fields : List (String × Json)) → Spells (renderFields fields) (fieldTokens fields)
  | [] => by unfold renderFields fieldTokens; exact .nil
  | [(_, value)] => by
      unfold renderFields fieldTokens
      exact spells_field (spells_render value)
  | (_, value) :: next :: rest => by
      unfold renderFields fieldTokens
      exact (spells_field (spells_render value)).append_mark rfl
        (spells_renderFields (next :: rest))

end

theorem tokens_render {json : Json} : Json.tokens json.render = some json.toTokens := by
  have spelled := spells_render json [] delimited_nil
  have last : tokensFrom .between [] = some [] := rfl
  rw [List.append_nil, last, Option.map_some, List.append_nil] at spelled
  exact spelled

/-! ## From tokens to values -/

mutual

/-- What is left of a value in its text: whatever names nothing is written as null. -/
def asWritten : Json → Json
  | .null => .null
  | .bool value => .bool value
  | .number value => .number value
  | .string text => .string text
  | .array items => .array (itemsAsWritten items)
  | .object fields => .object (fieldsAsWritten fields)
  | .unusable => .null

/-- What is left of items in their text. -/
def itemsAsWritten : List Json → List Json
  | [] => []
  | item :: rest => item.asWritten :: itemsAsWritten rest

/-- What is left of fields in their text. -/
def fieldsAsWritten : List (String × Json) → List (String × Json)
  | [] => []
  | (name, value) :: rest => (name, value.asWritten) :: fieldsAsWritten rest

end

namespace Reader

variable
    {frames : List Frame}
    {expect : Expect}
    {result value : Json}
    {items : List Json}
    {fields : List (String × Json)}
    {key : String}
    {behind : List Token}

theorem supply_expect (expect' : Expect) :
    supply ⟨frames, expect, result⟩ value = supply ⟨frames, expect', result⟩ value := by
  unfold supply
  cases frames with
  | nil => rfl
  | cons frame outer => cases frame <;> rfl

theorem step_value
    (awaited : expect = .value ∨ expect = .itemOrEnd)
    (opens : token ≠ .closeBracket) :
    step ⟨frames, expect, result⟩ token = beginValue ⟨frames, expect, result⟩ token := by
  rcases awaited with rfl | rfl
  · rfl
  · exact if_neg opens

theorem run_value
    (awaited : expect = .value ∨ expect = .itemOrEnd)
    (opens : token ≠ .closeBracket) :
    run ⟨frames, expect, result⟩ (token :: behind) =
      (beginValue ⟨frames, expect, result⟩ token).bind fun reader => reader.run behind := by
  rw [← step_value awaited opens]
  rfl

theorem run_openBracket (awaited : expect = .value ∨ expect = .itemOrEnd) :
    run ⟨frames, expect, result⟩ (.openBracket :: behind) =
      run ⟨.array [] :: frames, .itemOrEnd, result⟩ behind :=
  run_value awaited nofun

theorem run_openBrace (awaited : expect = .value ∨ expect = .itemOrEnd) :
    run ⟨frames, expect, result⟩ (.openBrace :: behind) =
      run ⟨.object [] true "" :: frames, .keyOrEnd, result⟩ behind :=
  run_value awaited nofun

theorem run_closeBracket
    (awaited : expect = .itemOrEnd ∨ expect = .commaOrEnd) :
    run ⟨.array items :: frames, expect, result⟩ (.closeBracket :: behind) =
      run (supply ⟨frames, expect, result⟩ (.array items.reverse)) behind := by
  rcases awaited with rfl | rfl <;> rfl

theorem run_closeBrace
    (awaited : expect = .keyOrEnd ∨ expect = .commaOrEnd) :
    run ⟨.object fields true key :: frames, expect, result⟩ (.closeBrace :: behind) =
      run (supply ⟨frames, expect, result⟩ (.object fields.reverse)) behind := by
  rcases awaited with rfl | rfl <;> rfl

theorem run_name {name : String}
    (awaited : expect = .keyOrEnd ∨ expect = .key) :
    run ⟨.object fields true key :: frames, expect, result⟩
        (.string (some name) :: .colon :: behind) =
      run ⟨.object fields true name :: frames, .value, result⟩ behind := by
  rcases awaited with rfl | rfl <;> rfl

end Reader

open Reader

mutual

/-- Wherever a value may come next, its tokens supply just this value. -/
theorem reads_toTokens
    {frames : List Frame} {expect : Expect} {result : Json} {behind : List Token}
    (awaited : expect = .value ∨ expect = .itemOrEnd) :
    (json : Json) →
      run ⟨frames, expect, result⟩ (json.toTokens ++ behind) =
        run (supply ⟨frames, expect, result⟩ json.asWritten) behind
  | .null => by unfold toTokens asWritten; exact run_value awaited nofun
  | .bool _ => by unfold toTokens asWritten; exact run_value awaited nofun
  | .number _ => by unfold toTokens asWritten; exact run_value awaited nofun
  | .string _ => by unfold toTokens asWritten; exact run_value awaited nofun
  | .array [] => by
      unfold toTokens asWritten itemTokens itemsAsWritten
      refine (run_openBracket awaited).trans ((run_closeBracket (.inl rfl)).trans ?_)
      rw [supply_expect expect]
      rfl
  | .array (item :: items) => by
      unfold toTokens asWritten
      rw [List.cons_append, List.cons_append, List.append_assoc, run_openBracket awaited]
      refine (reads_itemTokens (.inr rfl) (item :: items) nofun).trans ?_
      rw [supply_expect expect]
      rfl
  | .object [] => by
      unfold toTokens asWritten fieldTokens fieldsAsWritten
      refine (run_openBrace awaited).trans ((run_closeBrace (.inl rfl)).trans ?_)
      rw [supply_expect expect]
      rfl
  | .object (field :: fields) => by
      unfold toTokens asWritten
      rw [List.cons_append, List.cons_append, List.append_assoc, run_openBrace awaited]
      refine (reads_fieldTokens (.inl rfl) (field :: fields) nofun).trans ?_
      rw [supply_expect expect]
      rfl
  | .unusable => by unfold toTokens asWritten; exact run_value awaited nofun

/-- Items are added to those read before them. -/
theorem reads_itemTokens
    {frames : List Frame} {expect : Expect} {result : Json} {behind : List Token}
    {read : List Json}
    (awaited : expect = .value ∨ expect = .itemOrEnd) :
    (items : List Json) → items ≠ [] →
      run ⟨.array read :: frames, expect, result⟩ (itemTokens items ++ .closeBracket :: behind) =
        run (supply ⟨frames, .commaOrEnd, result⟩
          (.array (read.reverse ++ itemsAsWritten items))) behind
  | [], filled => absurd rfl filled
  | [item], _ => by
      unfold itemTokens itemsAsWritten itemsAsWritten
      rw [reads_toTokens awaited item]
      refine (run_closeBracket (.inr rfl)).trans ?_
      rw [List.reverse_cons]
  | item :: next :: items, _ => by
      unfold itemTokens itemsAsWritten
      rw [List.append_assoc, reads_toTokens awaited item]
      -- The comma leaves the reader where a further item may come next.
      have comma : run (supply ⟨.array read :: frames, expect, result⟩ item.asWritten)
            (.comma :: itemTokens (next :: items) ++ .closeBracket :: behind) =
          run ⟨.array (item.asWritten :: read) :: frames, .value, result⟩
            (itemTokens (next :: items) ++ .closeBracket :: behind) := rfl
      refine comma.trans ((reads_itemTokens (.inl rfl) (next :: items) nofun).trans ?_)
      rw [List.reverse_cons, List.append_assoc]
      rfl

/-- Fields are added to those read before them. -/
theorem reads_fieldTokens
    {frames : List Frame} {expect : Expect} {result : Json} {behind : List Token}
    {read : List (String × Json)} {key : String}
    (awaited : expect = .keyOrEnd ∨ expect = .key) :
    (fields : List (String × Json)) → fields ≠ [] →
      run ⟨.object read true key :: frames, expect, result⟩
          (fieldTokens fields ++ .closeBrace :: behind) =
        run (supply ⟨frames, .commaOrEnd, result⟩
          (.object (read.reverse ++ fieldsAsWritten fields))) behind
  | [], filled => absurd rfl filled
  | [(name, value)], _ => by
      unfold fieldTokens fieldsAsWritten fieldsAsWritten
      rw [List.cons_append, List.cons_append]
      refine (run_name awaited).trans ?_
      rw [reads_toTokens (.inl rfl) value]
      refine (run_closeBrace (.inr rfl)).trans ?_
      rw [List.reverse_cons]
  | (name, value) :: next :: fields, _ => by
      unfold fieldTokens fieldsAsWritten
      rw [List.append_assoc, List.cons_append, List.cons_append]
      refine (run_name awaited).trans ?_
      rw [reads_toTokens (.inl rfl) value]
      -- The comma leaves the reader where a further name comes next.
      have comma :
          run (supply ⟨.object read true name :: frames, .value, result⟩ value.asWritten)
            (.comma :: fieldTokens (next :: fields) ++ .closeBrace :: behind) =
          run ⟨.object ((name, value.asWritten) :: read) true name :: frames, .key, result⟩
            (fieldTokens (next :: fields) ++ .closeBrace :: behind) := rfl
      refine comma.trans ((reads_fieldTokens (.inr rfl) (next :: fields) nofun).trans ?_)
      rw [List.reverse_cons, List.append_assoc]
      rfl

end

/-- A value is read back from its text as it was written. -/
theorem parse_render {json : Json} : parse json.render = some json.asWritten := by
  have read : Reader.run {} json.toTokens = some (Reader.supply {} json.asWritten) := by
    rw [← List.append_nil json.toTokens]
    exact reads_toTokens (.inl rfl) json
  unfold parse
  rw [tokens_render]
  exact congrArg (Option.bind · _) read

end Quorum.Json
