import AgentContextLint.Lib.Json

/-!
# JSON texts tell values apart

The text of a value of strings and arrays determines the value, whatever follows it:
`canonical_append_inj`. The text of a unit is told from that of another by its first two units,
and the closing quote is the first unit that no escape takes.
-/

namespace Json

open Utf16 List

variable {u : CodeUnit} {s t x y : Text} {rest : Text}

/-! ## Quoted units -/

theorem hexUnit_injective {m n : Nat} (small : m < 16) (small' : n < 16)
    (same : hexUnit m = hexUnit n) : m = n := by
  have bounded : ∀ m < 16, ∀ n < 16, hexUnit m = hexUnit n → m = n := by decide
  exact bounded m small n small' same

theorem escapeUnit_injective {u v : CodeUnit} (same : escapeUnit u = escapeUnit v) : u = v := by
  have size : u.toNat < 0x10000 := u.toNat_lt
  have size' : v.toNat < 0x10000 := v.toNat_lt
  simp only [escapeUnit, cons.injEq, and_true, true_and] at same
  obtain ⟨first, second, third, fourth⟩ := same
  have one := hexUnit_injective (by omega) (by omega) first
  have two := hexUnit_injective (Nat.mod_lt _ (by omega)) (Nat.mod_lt _ (by omega)) second
  have three := hexUnit_injective (Nat.mod_lt _ (by omega)) (Nat.mod_lt _ (by omega)) third
  have four := hexUnit_injective (Nat.mod_lt _ (by omega)) (Nat.mod_lt _ (by omega)) fourth
  exact UInt16.toNat_inj.mp (by omega)

def shortEscape (letter : CodeUnit) : Option CodeUnit :=
  if letter = 0x22 ∨ letter = 0x5c then some letter
  else if letter = 0x62 then some 0x08
  else if letter = 0x66 then some 0x0c
  else if letter = 0x6e then some 0x0a
  else if letter = 0x72 then some 0x0d
  else if letter = 0x74 then some 0x09
  else none

/-- A unit stands for itself, has a short escape, or has a numeric one. -/
theorem quoteUnit_cases (u : CodeUnit) :
    (quoteUnit u = [u] ∧ u ≠ 0x22 ∧ u ≠ 0x5c ∧ isSurrogate u = false) ∨
      (∃ letter, quoteUnit u = [0x5c, letter] ∧ shortEscape letter = some u) ∨
      quoteUnit u = escapeUnit u := by
  unfold quoteUnit
  split_ifs with one two three four five six seven
  · exact .inr (.inl ⟨u, rfl, if_pos one⟩)
  · exact .inr (.inl ⟨0x62, rfl, by rw [two]; rfl⟩)
  · exact .inr (.inl ⟨0x66, rfl, by rw [three]; rfl⟩)
  · exact .inr (.inl ⟨0x6e, rfl, by rw [four]; rfl⟩)
  · exact .inr (.inl ⟨0x72, rfl, by rw [five]; rfl⟩)
  · exact .inr (.inl ⟨0x74, rfl, by rw [six]; rfl⟩)
  · exact .inr (.inr rfl)
  · obtain ⟨notQuote, notBackslash⟩ := not_or.mp one
    exact .inl ⟨rfl, notQuote, notBackslash, Bool.eq_false_iff.mpr (not_or.mp seven).2⟩

/-- The first unit of a unit's text is neither a closing quote nor half of a pair. -/
theorem quoteUnit_head :
    ∃ first rest, quoteUnit u = first :: rest ∧ first ≠ 0x22 ∧ isSurrogate first = false := by
  rcases quoteUnit_cases u with ⟨same, quote, -, whole⟩ | ⟨letter, same, -⟩ | same
  · exact ⟨u, [], same, quote, whole⟩
  · exact ⟨0x5c, [letter], same, by decide, rfl⟩
  · exact ⟨0x5c, _, same, by decide, rfl⟩

theorem quoteUnit_append_inj {u v : CodeUnit} {x y : Text}
    (same : quoteUnit u ++ x = quoteUnit v ++ y) : u = v ∧ x = y := by
  have numeric : shortEscape 0x75 = none := rfl
  rcases quoteUnit_cases u with ⟨eq, -, plain, -⟩ | ⟨letter, eq, short⟩ | eq <;>
    rcases quoteUnit_cases v with ⟨eq', -, plain', -⟩ | ⟨letter', eq', short'⟩ | eq' <;>
    rw [eq, eq'] at same
  · obtain ⟨first, rest⟩ := cons.inj same
    exact ⟨first, rest⟩
  · exact absurd (cons.inj same).1 plain
  · exact absurd (cons.inj same).1 plain
  · exact absurd (cons.inj same).1.symm plain'
  · obtain ⟨-, tail⟩ := cons.inj same
    obtain ⟨rfl, rest⟩ := cons.inj tail
    exact ⟨Option.some.inj (short.symm.trans short'), rest⟩
  · obtain ⟨-, tail⟩ := cons.inj same
    obtain ⟨rfl, -⟩ := cons.inj tail
    rw [numeric] at short
    cases short
  · exact absurd (cons.inj same).1.symm plain'
  · obtain ⟨-, tail⟩ := cons.inj same
    obtain ⟨rfl, -⟩ := cons.inj tail
    rw [numeric] at short'
    cases short'
  · obtain ⟨escapes, rest⟩ := append_inj same rfl
    exact ⟨escapeUnit_injective escapes, rest⟩

/-! ## Quoted texts -/

/-- Half of a pair is text only next to the other half. -/
theorem quoteUnits_pair {u v : CodeUnit} (pair : isHighSurrogate u ∧ isLowSurrogate v) :
    quoteUnits (u :: v :: rest) = u :: v :: quoteUnits rest := by
  rw [quoteUnits, if_pos pair]

theorem quoteUnits_single
    (single : ∀ v tail, rest = v :: tail → ¬ (isHighSurrogate u ∧ isLowSurrogate v)) :
    quoteUnits (u :: rest) = quoteUnit u ++ quoteUnits rest := by
  cases rest with
  | nil => rw [quoteUnits, quoteUnits, append_nil]
  | cons v tail => rw [quoteUnits, if_neg (single v tail rfl)]

/-- A text starts with a pair, or with a unit that is none with the one behind it. -/
theorem units_cases (text : Text) :
    text = [] ∨ (∃ u v rest, text = u :: v :: rest ∧ isHighSurrogate u ∧ isLowSurrogate v) ∨
      ∃ u rest, text = u :: rest ∧ quoteUnits text = quoteUnit u ++ quoteUnits rest := by
  cases text with
  | nil => exact .inl rfl
  | cons u rest =>
    cases rest with
    | nil => exact .inr (.inr ⟨u, [], rfl, quoteUnits_single (by rintro _ _ ⟨⟩)⟩)
    | cons v tail =>
      by_cases pair : isHighSurrogate u ∧ isLowSurrogate v
      · exact .inr (.inl ⟨u, v, tail, rfl, pair⟩)
      · refine .inr (.inr ⟨u, v :: tail, rfl, quoteUnits_single ?_⟩)
        rintro _ _ ⟨⟩
        exact pair

theorem isSurrogate_of_high (high : isHighSurrogate u = true) : isSurrogate u = true := by
  rw [isSurrogate, high]
  rfl

/-- The closing quote is where the text ends. -/
theorem quoteUnits_append_inj
    (same : quoteUnits s ++ 0x22 :: x = quoteUnits t ++ 0x22 :: y) : s = t ∧ x = y := by
  generalize size : s.length = n
  induction n using Nat.strongRecOn generalizing s t with
  | ind n ih =>
    have noQuote : ∀ {u : CodeUnit} {left right : Text},
        (0x22 : CodeUnit) :: left ≠ quoteUnit u ++ right := by
      intro u left right equal
      obtain ⟨first, rest, eq, other, -⟩ := @quoteUnit_head u
      rw [eq] at equal
      exact other (cons.inj equal).1.symm
    have noHalf : ∀ {u h : CodeUnit} {left right : Text}, isHighSurrogate h = true →
        h :: left ≠ quoteUnit u ++ right := by
      intro u h left right high equal
      obtain ⟨first, rest, eq, -, whole⟩ := @quoteUnit_head u
      rw [eq] at equal
      rw [(cons.inj equal).1.symm, isSurrogate_of_high high] at whole
      cases whole
    have noQuoteHalf : ∀ {h : CodeUnit} {left right : Text}, isHighSurrogate h = true →
        h :: left ≠ (0x22 : CodeUnit) :: right := by
      rintro h left right high ⟨⟩
      cases high
    rcases units_cases s with rfl | ⟨u, v, rest, rfl, high, low⟩ | ⟨u, rest, rfl, eq⟩ <;>
      rcases units_cases t with rfl | ⟨u', v', rest', rfl, high', low'⟩ | ⟨u', rest', rfl, eq'⟩
    · exact ⟨rfl, (cons.inj same).2⟩
    · rw [quoteUnits_pair ⟨high', low'⟩] at same
      exact absurd same.symm (noQuoteHalf high')
    · rw [eq', append_assoc] at same
      exact absurd same noQuote
    · rw [quoteUnits_pair ⟨high, low⟩] at same
      exact absurd same (noQuoteHalf high)
    · rw [quoteUnits_pair ⟨high, low⟩, quoteUnits_pair ⟨high', low'⟩] at same
      obtain ⟨rfl, tail⟩ := cons.inj same
      obtain ⟨rfl, later⟩ := cons.inj tail
      simp only [length_cons] at size
      obtain ⟨rfl, ends⟩ := ih rest.length (by omega) later rfl
      exact ⟨rfl, ends⟩
    · rw [quoteUnits_pair ⟨high, low⟩, eq', append_assoc] at same
      exact absurd same (noHalf high)
    · rw [eq, append_assoc] at same
      exact absurd same.symm noQuote
    · rw [quoteUnits_pair ⟨high', low'⟩, eq, append_assoc] at same
      exact absurd same.symm (noHalf high')
    · rw [eq, eq', append_assoc, append_assoc] at same
      obtain ⟨rfl, later⟩ := quoteUnit_append_inj same
      simp only [length_cons] at size
      obtain ⟨rfl, ends⟩ := ih rest.length (by omega) later rfl
      exact ⟨rfl, ends⟩

theorem quote_append_inj (same : quote s ++ x = quote t ++ y) : s = t ∧ x = y := by
  refine quoteUnits_append_inj ?_
  simpa [quote] using same

/-! ## Texts of values -/

mutual

/-- A value of strings and arrays. -/
def isPlain : Json → Bool
  | .string _ => true
  | .array items => arePlain items
  | .null | .number _ | .object _ => false

def arePlain : List Json → Bool
  | [] => true
  | item :: rest => isPlain item && arePlain rest

end

/-- The first unit of a value's text tells strings from arrays, and neither closes an array. -/
theorem canonical_head {value : Json} (plain : isPlain value = true) :
    ∃ first rest, canonical value = first :: rest ∧ first ≠ 0x5d ∧ first ≠ 0x2c := by
  cases value with
  | string text => exact ⟨0x22, _, rfl, by decide, by decide⟩
  | array items => exact ⟨0x5b, _, rfl, by decide, by decide⟩
  | null => cases plain
  | number value => cases plain
  | object fields => cases plain

theorem commaSeparated_cons (piece : Text) (pieces : List Text) (nonempty : pieces ≠ []) :
    commaSeparated (piece :: pieces) = piece ++ 0x2c :: commaSeparated pieces := by
  cases pieces with
  | nil => exact absurd rfl nonempty
  | cons next rest => simp [commaSeparated, intercalate]

/-- What stands behind the first item of an array. -/
def behindItem (rest : List Json) (x : Text) : Text :=
  match rest with
  | [] => 0x5d :: x
  | _ :: _ => 0x2c :: (commaSeparated (canonicalItems rest) ++ 0x5d :: x)

theorem items_eq (item : Json) (rest : List Json) (x : Text) :
    commaSeparated (canonicalItems (item :: rest)) ++ 0x5d :: x =
      canonical item ++ behindItem rest x := by
  cases rest with
  | nil => simp [canonicalItems, commaSeparated, intercalate, behindItem]
  | cons next later =>
    have nonempty : canonicalItems (next :: later) ≠ [] := cons_ne_nil _ _
    rw [canonicalItems, commaSeparated_cons _ _ nonempty, append_assoc]
    rfl

theorem items_ne_end {item : Json} {rest : List Json} {x y : Text} (plain : isPlain item = true) :
    (0x5d : CodeUnit) :: x ≠ commaSeparated (canonicalItems (item :: rest)) ++ 0x5d :: y := by
  obtain ⟨first, tail, eq, other, -⟩ := canonical_head plain
  rw [items_eq, eq]
  exact fun same => other (cons.inj same).1.symm

mutual

/-- A value is read off in front of whatever follows its text. -/
theorem canonical_append_inj {value other : Json} (plain : isPlain value = true)
    (plain' : isPlain other = true) {x y : Text}
    (same : canonical value ++ x = canonical other ++ y) : value = other ∧ x = y := by
  match value, other with
  | .string s, .string t =>
    obtain ⟨rfl, rest⟩ := quote_append_inj same
    exact ⟨rfl, rest⟩
  | .string s, .array items => exact absurd (cons.inj same).1 (by decide)
  | .array items, .string t => exact absurd (cons.inj same).1 (by decide)
  | .array items, .array others =>
    have tails : commaSeparated (canonicalItems items) ++ 0x5d :: x =
        commaSeparated (canonicalItems others) ++ 0x5d :: y := by
      simpa [canonical] using same
    obtain ⟨rfl, rest⟩ := canonicalItems_append_inj plain plain' tails
    exact ⟨rfl, rest⟩
  | .null, _ | .number _, _ | .object _, _ => cases plain
  | .string _, .null | .string _, .number _ | .string _, .object _ => cases plain'
  | .array _, .null | .array _, .number _ | .array _, .object _ => cases plain'

theorem canonicalItems_append_inj {items others : List Json} (plain : arePlain items = true)
    (plain' : arePlain others = true) {x y : Text}
    (same : commaSeparated (canonicalItems items) ++ 0x5d :: x =
      commaSeparated (canonicalItems others) ++ 0x5d :: y) : items = others ∧ x = y := by
  match items, others with
  | [], [] => exact ⟨rfl, (cons.inj same).2⟩
  | [], other :: rest' =>
    exact absurd same (items_ne_end ((Bool.and_eq_true ..).mp plain').1)
  | item :: rest, [] => exact absurd same.symm (items_ne_end ((Bool.and_eq_true ..).mp plain).1)
  | item :: rest, other :: rest' =>
    obtain ⟨first, later⟩ := (Bool.and_eq_true ..).mp plain
    obtain ⟨first', later'⟩ := (Bool.and_eq_true ..).mp plain'
    rw [items_eq, items_eq] at same
    obtain ⟨rfl, behind⟩ := canonical_append_inj first first' same
    match rest, rest' with
    | [], [] => exact ⟨rfl, (cons.inj behind).2⟩
    | [], next :: _ => exact absurd (cons.inj behind).1 (by decide)
    | next :: _, [] => exact absurd (cons.inj behind).1 (by decide)
    | next :: others, next' :: others' =>
      obtain ⟨same, ends⟩ := canonicalItems_append_inj later later' (cons.inj behind).2
      exact ⟨congrArg (item :: ·) same, ends⟩

end

theorem canonical_injective {value other : Json} (plain : isPlain value = true)
    (plain' : isPlain other = true) (same : canonical value = canonical other) : value = other :=
  (@canonical_append_inj value other plain plain' [] [] (by rw [same])).1

theorem arePlain_of_forall {items : List Json} (each : ∀ item ∈ items, isPlain item = true) :
    arePlain items = true := by
  induction items with
  | nil => rfl
  | cons item rest ih =>
    rw [arePlain, each item mem_cons_self]
    exact ih fun other member => each other (mem_cons_of_mem _ member)

def texts (items : List Text) : Json := .array (items.map .string)

theorem isPlain_texts (items : List Text) : isPlain (texts items) = true := by
  refine arePlain_of_forall fun item member => ?_
  obtain ⟨text, -, rfl⟩ := mem_map.mp member
  rfl

theorem texts_injective {items others : List Text} (same : texts items = texts others) :
    items = others :=
  map_injective_iff.mpr (fun _ _ equal => Json.string.inj equal) (Json.array.inj same)

end Json
