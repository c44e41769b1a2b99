import AgentContextLint.Formatters.LineHashRuns
import Mathlib.Algebra.BigOperators.Ring.Finset
import Mathlib.Data.List.TakeWhile

/-!
# The line hashes are what they are said to be

The scan of a text yields the stream that is defined by its lines, and the lines start where they
are said to. Hence every line has one entry, the hash of the stream from its start on and how often
this hash has occurred (`lineHashes_exact`).
-/

namespace AgentContextLint.SarifLineHashes

open Utf16 RollingHash List
open IrValidation (buildSourcePositionIndex checkPosition expectedPosition)

variable {lines : List Text} {u : CodeUnit} (rest : Text)

/-! ## The stream of lines -/

def streamOf : List Text → List Nat
  | [] => []
  | [line] => counted line ++ [hashEof]
  | line :: next :: rest => counted line ++ 10 :: streamOf (next :: rest)

theorem intercalate_counted (line : Text) (rest : List Text) :
    intercalate [10] ((line :: rest).map counted) ++ [hashEof] = streamOf (line :: rest) := by
  induction rest generalizing line with
  | nil => simp [streamOf, intercalate]
  | cons next rest ih =>
    rw [streamOf, ← ih next, map_cons, map_cons, intercalate_cons_cons]
    simp

variable (text : Text)

theorem textLines_ne_nil : textLines text ≠ [] := by
  induction text using textLines.induct with
  | case1 => exact cons_ne_nil _ _
  | case2 rest ih => exact cons_ne_nil _ _
  | case3 u rest other breaks ih =>
    rw [textLines, if_pos breaks]
    · exact cons_ne_nil _ _
    · exact other
  | case4 u rest other none ih =>
    rw [textLines, if_neg none]
    · cases found : textLines rest with
      | nil => exact absurd found ih
      | cons line lines => exact cons_ne_nil _ _
    · exact other

theorem hashStream_eq : hashStream text = streamOf (textLines text) := by
  rcases exists_cons_of_ne_nil (textLines_ne_nil text) with ⟨line, rest, eq⟩
  rw [hashStream, eq, intercalate_counted]

theorem streamOf_break (some : lines ≠ []) : streamOf ([] :: lines) = 10 :: streamOf lines := by
  rcases exists_cons_of_ne_nil some with ⟨line, rest, rfl⟩
  rfl

theorem streamOf_unit (u : CodeUnit) (some : lines ≠ []) :
    streamOf (lines.modifyHead (u :: ·)) = counted [u] ++ streamOf lines := by
  rcases exists_cons_of_ne_nil some with ⟨line, rest, rfl⟩
  have split : counted (u :: line) = counted [u] ++ counted line := by
    rw [counted, map_cons, ← singleton_append, filter_append]
    rfl
  cases rest with
  | nil => rw [modifyHead_cons, streamOf, streamOf, split, append_assoc]
  | cons next rest => rw [modifyHead_cons, streamOf, streamOf, split, append_assoc]

/-- Only a line feed is read otherwise behind a carriage return. -/
theorem scan_true {inputs : List Nat} (other : inputs.head? ≠ some 10) :
    scan true inputs = scan false inputs := by
  cases inputs with
  | nil => rfl
  | cons input rest =>
    have different : input ≠ 10 := fun same => other (congrArg some same)
    simp [scan, different]

theorem scan_eq : scan false (text.map (·.toNat) ++ [hashEof]) = streamOf (textLines text) := by
  induction text using textLines.induct with
  | case1 => rfl
  | case2 rest ih =>
    rw [textLines, streamOf_break (textLines_ne_nil rest), ← ih]
    rfl
  | case3 u rest other breaks ih =>
    rw [textLines, if_pos breaks, streamOf_break (textLines_ne_nil rest), ← ih]
    · rcases breaks with rfl | rfl
      · rfl
      · have next : (rest.map (·.toNat) ++ [hashEof]).head? ≠ some 10 := by
          cases rest with
          | nil => decide
          | cons v rest =>
            intro same
            exact other rest rfl (congrArg (· :: rest) (UInt16.toNat_inj.mp (Option.some.inj same)))
        exact congrArg (10 :: ·) (scan_true next)
    · exact other
  | case4 u rest other none ih =>
    rw [textLines, if_neg none, streamOf_unit u (textLines_ne_nil rest), ← ih]
    · rw [not_or] at none
      have feed : u.toNat ≠ 10 := fun same => none.1 (UInt16.toNat_inj.mp same)
      have carriage : u.toNat ≠ 13 := fun same => none.2 (UInt16.toNat_inj.mp same)
      rw [map_cons, cons_append, scan]
      by_cases blank : u.toNat = 32 ∨ u.toNat = 9
      · rw [if_pos (blank.imp_right Or.inl)]
        rcases blank with space | tab
        · simp [counted, space]
        · simp [counted, tab]
      · rw [if_neg, if_neg carriage]
        · rw [not_or] at blank
          simp [counted, blank]
        · simp [feed, blank]
    · exact other

/-! ## Lines that are output -/

theorem map_fst_marked (lineStart : Bool) (lineNumber : Nat) (cs : List Nat) :
    (marked lineStart lineNumber cs).map (·.1) = cs := by
  induction cs generalizing lineStart lineNumber with
  | nil => rfl
  | cons c rest ih => rw [marked_cons, map_cons, ih]

theorem marked_within {us : List Nat} (inLine : 10 ∉ us) (last : Nat) (rest : List Nat)
    (lineNumber : Nat) : ∃ others, marked false lineNumber (us ++ last :: rest) =
      others ++ marked (last = 10) lineNumber rest ∧ ∀ entry ∈ others, entry.2 = none := by
  induction us with
  | nil => exact ⟨[(last, none)], rfl, forall_mem_singleton.mpr rfl⟩
  | cons u us ih =>
    rw [mem_cons, not_or] at inLine
    rcases ih inLine.2 with ⟨others, eq, none⟩
    refine ⟨(u, Option.none) :: others, ?_, forall_mem_cons.mpr ⟨rfl, none⟩⟩
    rw [cons_append, marked_cons, decide_eq_false (Ne.symm inLine.1), cons_append]
    exact congrArg _ eq

/-- A line and what ends it: only the first character is marked. -/
theorem marked_line {us : List Nat} (inLine : 10 ∉ us) (last : Nat) (rest : List Nat)
    (lineNumber : Nat) : ∃ character others, marked true lineNumber (us ++ last :: rest) =
      (character, some (lineNumber + 1)) :: others ++ marked (last = 10) (lineNumber + 1) rest ∧
        ∀ entry ∈ others, entry.2 = none := by
  cases us with
  | nil => exact ⟨last, [], rfl, forall_mem_nil _⟩
  | cons u us =>
    rw [mem_cons, not_or] at inLine
    rcases marked_within inLine.2 last rest (lineNumber + 1) with ⟨others, eq, none⟩
    refine ⟨u, others, ?_, none⟩
    rw [cons_append, marked_cons, decide_eq_false (Ne.symm inLine.1), if_pos rfl, cons_append]
    exact congrArg _ eq

def headHash (lines : List Text) : Nat :=
  hashOf ((streamOf lines ++ replicate hashWindow 0).take hashWindow)

def suffixHashes : List Text → List Nat
  | [] => []
  | line :: rest => headHash (line :: rest) :: suffixHashes rest

def outputLines (out : Output) (hashes : List (Nat × Nat)) : Output :=
  hashes.foldl (fun out entry => outputLine out entry.2 entry.1) out

theorem map_fst_trailer : trailer.map (·.1) = replicate hashWindow 0 := map_replicate

theorem foldl_emit_lines (inLines : ∀ line ∈ lines, 10 ∉ counted line)
    (lineNumber : Nat) (out : Output) :
    (windows hashWindow (marked true lineNumber (streamOf lines) ++ trailer)).foldl emit out =
      outputLines out ((suffixHashes lines).zipIdx (lineNumber + 1)) := by
  induction lines generalizing lineNumber out with
  | nil =>
    rw [streamOf, marked, nil_append, windows_of_le (by rw [trailer, length_replicate])]
    rfl
  | cons line rest ih =>
    rcases forall_mem_cons.mp inLines with ⟨here, later⟩
    have split : ∃ last, streamOf (line :: rest) = counted line ++ last :: streamOf rest ∧
        marked (last = 10) (lineNumber + 1) (streamOf rest) =
          marked true (lineNumber + 1) (streamOf rest) := by
      cases rest with
      | nil => exact ⟨hashEof, rfl, rfl⟩
      | cons next rest => exact ⟨10, rfl, rfl⟩
    rcases split with ⟨last, stream, next⟩
    rcases marked_line here last (streamOf rest) lineNumber with ⟨character, others, eq, none⟩
    rw [← stream, next] at eq
    have long : hashWindow ≤ (marked true (lineNumber + 1) (streamOf rest) ++ trailer).length := by
      rw [length_append, trailer, length_replicate]
      exact Nat.le_add_left _ _
    have whole : ((character, some (lineNumber + 1)) :: others ++
        (marked true (lineNumber + 1) (streamOf rest) ++ trailer)).map (·.1) =
          streamOf (line :: rest) ++ replicate hashWindow 0 := by
      rw [← append_assoc, ← eq, map_append, map_fst_marked, map_fst_trailer]
    rw [eq, append_assoc, foldl_emit_line none long, whole, ih later]
    rfl

/-! ## What is output -/

/-- The hexadecimal digits of a number, the first one first. -/
def hexDigits (n : Nat) : List Nat := if n = 0 then [0] else (Nat.digits 16 n).reverse

theorem ofDigits_hexDigits (n : Nat) : Nat.ofDigits 16 (hexDigits n).reverse = n := by
  unfold hexDigits
  split_ifs with zero
  · rw [zero]
    rfl
  · rw [reverse_reverse, Nat.ofDigits_digits]

theorem hexDigits_lt {n : Nat} : ∀ d ∈ hexDigits n, d < 16 := by
  intro d member
  unfold hexDigits at member
  split_ifs at member
  · rw [mem_singleton.mp member]
    decide
  · exact Nat.digits_lt_base (by decide) (mem_reverse.mp member)

theorem hexText_injective {m n : Nat} (same : hexText m = hexText n) : m = n := by
  have value : ∀ d < 16, (if (Json.hexUnit d).toNat < 0x40 then (Json.hexUnit d).toNat - 0x30
      else (Json.hexUnit d).toNat - 0x57) = d := by decide
  have text : ∀ n, hexText n = (hexDigits n).map Json.hexUnit := by
    intro n
    unfold hexText hexDigits
    split_ifs
    · rfl
    · rfl
  have read : ∀ n, (hexText n).map (fun u => if u.toNat < 0x40 then u.toNat - 0x30
      else u.toNat - 0x57) = hexDigits n := by
    intro n
    rw [text, map_map]
    conv_rhs => rw [← map_id (hexDigits n)]
    exact map_congr_left fun d member => value d (hexDigits_lt d member)
  have digits : hexDigits m = hexDigits n := by rw [← read m, same, read n]
  rw [← ofDigits_hexDigits m, digits, ofDigits_hexDigits]

/-- What has been output of some hashes. -/
structure Listed (hashes : List Nat) (out : Output) : Prop where
  keys : out.1.keys = (range hashes.length).map (· + 1)
  entries : ∀ line hash, hashes[line]? = some hash → out.1.get? (line + 1) =
    some (hexText hash ++ js ":" ++ Netstring.decimalText ((hashes.take (line + 1)).count hash))
  counts : ∀ hash, (out.2.get? (hexText hash)).getD 0 = hashes.count hash

theorem listed_outputLines (hashes : List Nat) :
    Listed hashes (outputLines (.empty, .empty) (hashes.zipIdx 1)) := by
  induction hashes using reverseRecOn with
  | nil => exact ⟨rfl, fun _ _ found => (by cases found), fun _ => rfl⟩
  | append_singleton hashes hash ih =>
    have last : outputLines (.empty, .empty) ((hashes ++ [hash]).zipIdx 1) =
        outputLine (outputLines (.empty, .empty) (hashes.zipIdx 1)) (1 + hashes.length) hash := by
      rw [zipIdx_append, outputLines, foldl_append]
      rfl
    rw [last]
    generalize outputLines (.empty, .empty) (hashes.zipIdx 1) = out at ih ⊢
    unfold outputLine
    dsimp only
    rw [if_pos (by omega), ih.counts, add_comm 1]
    have fresh : hashes.length + 1 ∉ out.1.keys := by
      rw [ih.keys]
      simp
    have raws : ∀ other, hexText hash = hexText other ↔ hash = other := fun other =>
      ⟨hexText_injective, congrArg hexText⟩
    refine ⟨?_, ?_, ?_⟩
    · rw [OrderedMap.keys, OrderedMap.entries_set_of_notMem fresh, map_append,
        ← OrderedMap.keys, ih.keys, length_append, length_singleton, range_succ,
        map_append]
      rfl
    · intro line other found
      rw [OrderedMap.get?_set]
      rcases Nat.lt_or_ge line hashes.length with before | behind
      · rw [getElem?_append_left before] at found
        rw [if_neg (by omega), ih.entries line other found, take_append_of_le_length before]
      · have bound := (List.getElem?_eq_some_iff.mp found).1
        rw [length_append, length_singleton] at bound
        have same : line = hashes.length := by omega
        subst same
        rw [getElem?_concat_length] at found
        cases found
        have whole : (hashes ++ [hash]).take (hashes.length + 1) = hashes ++ [hash] :=
          take_of_length_le (by rw [length_append, length_singleton])
        rw [if_pos rfl, whole, count_append, count_singleton_self]
    · intro other
      rw [OrderedMap.get?_set, count_append, count_singleton]
      by_cases same : hash = other
      · rw [if_pos ((raws other).mpr same), ← same]
        simp
      · rw [if_neg fun eq => same ((raws other).mp eq), ih.counts]
        simp [same]

/-! ## The hashes of the lines -/

theorem streamOf_drop {line : Nat} (inside : line < lines.length) :
    streamOf (lines.drop line) = (streamOf lines).drop
      (((lines.take line).map fun units => (counted units).length + 1).sum) := by
  induction lines generalizing line with
  | nil => exact absurd inside (Nat.not_lt_zero _)
  | cons first rest ih =>
    cases line with
    | zero => rfl
    | succ line =>
      have later : line < rest.length := Nat.lt_of_succ_lt_succ inside
      have stream : streamOf (first :: rest) = (counted first ++ [10]) ++ streamOf rest := by
        cases rest with
        | nil => exact absurd later (Nat.not_lt_zero _)
        | cons next rest => rw [streamOf, append_assoc, singleton_append]
      have long : (counted first ++ [10]).length = (counted first).length + 1 := by
        rw [length_append, length_singleton]
      rw [drop_succ_cons, ih later, stream, take_succ_cons, map_cons, sum_cons,
        ← long, ← drop_drop, drop_left]

theorem mask64_natCast (n : Nat) : mask64 n = n % 2 ^ 64 := by
  unfold mask64
  have cast : ((n : Int) % 2 ^ 64) = ((n % 2 ^ 64 : Nat) : Int) := by
    rw [Int.natCast_mod]
    rfl
  rw [cast, Int.toNat_natCast]

theorem hashOf_eq {characters : List Nat} (long : characters.length = hashWindow) :
    hashOf characters = (∑ j ∈ Finset.range 100, characters.getD j 0 * 37 ^ (99 - j)) % 2 ^ 64 := by
  rw [hashOf, polynomial_eq_sum, length_map, long, ← mask64_natCast, Nat.cast_sum]
  refine congrArg mask64 (Finset.sum_congr rfl fun j _ => ?_)
  rw [Nat.cast_mul, Nat.cast_pow]
  refine congrArg (· * (37 : Int) ^ (99 - j)) ?_
  rw [getD_eq_getElem?_getD, getElem?_map, getD_eq_getElem?_getD]
  cases characters[j]? with
  | none => rfl
  | some character => rfl

/-- From the start of a line on, the window is filled up with zeros. -/
theorem headHash_drop {text : Text} {line : Nat} (inside : line < (textLines text).length) :
    headHash ((textLines text).drop line) = lineHash text line := by
  rw [headHash, streamOf_drop inside, ← hashStream_eq, hashOf_eq, lineHash]
  · refine congrArg (· % 2 ^ 64) (Finset.sum_congr rfl fun j here => ?_)
    have small : j < hashWindow := Finset.mem_range.mp here
    refine congrArg (· * 37 ^ (99 - j)) ?_
    rw [getD_eq_getElem?_getD, getElem?_take_of_lt small, getD_eq_getElem?_getD, streamStart]
    rcases Nat.lt_or_ge j ((hashStream text).drop (((textLines text).take line).map
      fun units => (counted units).length + 1).sum).length with before | behind
    · rw [getElem?_append_left before, getElem?_drop]
    · rw [getElem?_append_right behind]
      have none := getElem?_eq_none behind
      rw [getElem?_drop] at none
      rw [none, getElem?_replicate]
      split_ifs
      · rfl
      · rfl
  · rw [length_take, length_append, length_replicate]
    omega

theorem suffixHashes_eq (lines : List Text) :
    suffixHashes lines = (range lines.length).map fun line => headHash (lines.drop line) := by
  induction lines with
  | nil => rfl
  | cons line rest ih =>
    rw [suffixHashes, ih, length_cons, range_succ_eq_map, map_cons, map_map]
    rfl

theorem suffixHashes_textLines : suffixHashes (textLines text) =
    (range (textLines text).length).map (lineHash text) := by
  rw [suffixHashes_eq]
  exact map_congr_left fun line member => headHash_drop (mem_range.mp member)

/-! ## The numbers of the lines -/

theorem lineStartsFrom_gt {offset : Nat} {units : Text} :
    ∀ start ∈ IrValidation.lineStartsFrom offset units, offset < start := by
  induction offset, units using IrValidation.lineStartsFrom.induct with
  | case1 offset => exact forall_mem_nil _
  | case2 offset u breaks =>
    rw [IrValidation.lineStartsFrom, if_pos breaks]
    exact forall_mem_singleton.mpr (Nat.lt_succ_self offset)
  | case3 offset u none =>
    rw [IrValidation.lineStartsFrom, if_neg none]
    exact forall_mem_nil _
  | case4 offset u v rest pair ih =>
    rw [IrValidation.lineStartsFrom, if_pos pair]
    exact fun start member => (by omega : offset < offset + 2).trans (ih start member)
  | case5 offset u v rest single breaks ih =>
    rw [IrValidation.lineStartsFrom, if_neg single, if_pos breaks]
    exact forall_mem_cons.mpr ⟨Nat.lt_succ_self offset,
      fun start member => (Nat.lt_succ_self offset).trans (ih start member)⟩
  | case6 offset u v rest single none ih =>
    rw [IrValidation.lineStartsFrom, if_neg single, if_neg none]
    exact fun start member => (Nat.lt_succ_self offset).trans (ih start member)

def lineFrom (start : Nat) : Text :=
  (text.drop start).takeWhile fun u => u ≠ 0x0a ∧ u ≠ 0x0d

theorem textLines_break {rest : Text} (breaks : u = 0x0a ∨ u = 0x0d)
    (alone : ¬ (u = 0x0d ∧ rest.head? = some 0x0a)) : textLines (u :: rest) = [] :: textLines rest := by
  rw [textLines, if_pos breaks]
  intro later carriage feed
  exact alone ⟨carriage, by rw [feed, head?_cons]⟩

theorem textLines_unit (none : ¬ (u = 0x0a ∨ u = 0x0d)) :
    textLines (u :: rest) = (textLines rest).modifyHead (u :: ·) := by
  rw [textLines, if_neg none]
  intro later carriage _
  exact none (Or.inr carriage)

theorem lineFrom_unit (none : ¬ (u = 0x0a ∨ u = 0x0d)) :
    lineFrom (u :: rest) 0 = u :: lineFrom rest 0 :=
  takeWhile_cons_of_pos (decide_eq_true (not_or.mp none))

theorem lineFrom_break (breaks : u = 0x0a ∨ u = 0x0d) : lineFrom (u :: rest) 0 = [] :=
  takeWhile_cons_of_neg fun others =>
    absurd breaks (not_or.mpr (of_decide_eq_true others))

/-- Lines that start further on are the same behind a unit. -/
theorem map_lineFrom_cons (u : CodeUnit) (rest : Text) {offset : Nat} {starts : List Nat}
    (behind : ∀ start ∈ starts, offset < start) :
    starts.map (fun start => lineFrom (u :: rest) (start - offset)) =
      starts.map fun start => lineFrom rest (start - (offset + 1)) := by
  apply map_congr_left
  intro start member
  have shifted : start - offset = (start - (offset + 1)) + 1 := by
    have := behind start member
    omega
  rw [shifted]
  rfl

theorem textLines_eq_from (offset : Nat) (units : Text) : textLines units = lineFrom units 0 ::
      (IrValidation.lineStartsFrom offset units).map fun start => lineFrom units (start - offset) := by
  induction offset, units using IrValidation.lineStartsFrom.induct with
  | case1 offset => rfl
  | case2 offset u breaks =>
    rw [IrValidation.lineStartsFrom, if_pos breaks, lineFrom_break [] breaks,
      textLines_break breaks fun both => (by cases both.2), map_singleton, Nat.add_sub_cancel_left]
    rfl
  | case3 offset u none =>
    have alone : ¬ (u = 0x0a ∨ u = 0x0d) := none
    rw [IrValidation.lineStartsFrom, if_neg none, lineFrom_unit [] alone, textLines_unit [] alone]
    rfl
  | case4 offset u v rest pair ih =>
    rcases (Bool.and_eq_true _ _).mp pair with ⟨high, low⟩
    have first : ¬ (u = 0x0a ∨ u = 0x0d) := by
      intro breaks
      rcases breaks with rfl | rfl <;> cases high
    have second : ¬ (v = 0x0a ∨ v = 0x0d) := by
      intro breaks
      rcases breaks with rfl | rfl <;> cases low
    have behind : ∀ start ∈ IrValidation.lineStartsFrom (offset + 2) rest, offset + 2 < start :=
      lineStartsFrom_gt
    rw [IrValidation.lineStartsFrom, if_pos pair, textLines_unit _ first, textLines_unit _ second, ih,
      lineFrom_unit _ first, lineFrom_unit _ second,
      map_lineFrom_cons u _ fun start member => (by omega : offset < offset + 2).trans
        (behind start member),
      map_lineFrom_cons v _ fun start member => (Nat.lt_succ_self (offset + 1)).trans
        (behind start member)]
    rfl
  | case5 offset u v rest single breaks ih =>
    have ends : u = 0x0a ∨ u = 0x0d := breaks.imp_right And.left
    have alone : ¬ (u = 0x0d ∧ (v :: rest).head? = some 0x0a) := by
      intro ⟨carriage, feed⟩
      rcases breaks with same | ⟨_, other⟩
      · cases same.symm.trans carriage
      · exact other (Option.some.inj feed)
    have behind : ∀ start ∈ IrValidation.lineStartsFrom (offset + 1) (v :: rest),
        offset < start := fun start member =>
      (Nat.lt_succ_self offset).trans (lineStartsFrom_gt start member)
    rw [IrValidation.lineStartsFrom, if_neg single, if_pos breaks, textLines_break ends alone, ih,
      lineFrom_break _ ends, map_cons, map_lineFrom_cons u _ behind, Nat.add_sub_cancel_left]
    rfl
  | case6 offset u v rest single none ih =>
    have behind : ∀ start ∈ IrValidation.lineStartsFrom (offset + 1) (v :: rest),
        offset < start := fun start member =>
      (Nat.lt_succ_self offset).trans (lineStartsFrom_gt start member)
    rw [IrValidation.lineStartsFrom, if_neg single, if_neg none, map_lineFrom_cons u _ behind]
    by_cases ends : u = 0x0a ∨ u = 0x0d
    · -- a carriage return in front of a line feed
      rw [not_or, not_and, not_not] at none
      have carriage := ends.resolve_left none.1
      have feed := none.2 carriage
      subst carriage
      subst feed
      have feedEnds : (0x0a : CodeUnit) = 0x0a ∨ (0x0a : CodeUnit) = 0x0d := Or.inl rfl
      have same : textLines (0x0d :: 0x0a :: rest) = textLines (0x0a :: rest) := by
        rw [textLines_break feedEnds fun both => (by cases both.1)]
        rfl
      rw [same, ih, lineFrom_break _ ends, lineFrom_break _ feedEnds]
    · rw [textLines_unit _ ends, ih, lineFrom_unit _ ends]
      rfl

theorem textLines_eq : textLines text =
    (buildSourcePositionIndex text).lineStarts.map (lineFrom text) := textLines_eq_from 0 text

theorem textLines_inLine : ∀ line ∈ textLines text, 10 ∉ counted line := by
  intro line member feed
  rw [textLines_eq] at member
  rcases mem_map.mp member with ⟨start, _, rfl⟩
  rcases mem_map.mp (mem_of_mem_filter feed) with ⟨u, inLine, same⟩
  have other := mem_takeWhile_imp inLine
  simp only [ne_eq, decide_eq_true_eq] at other
  exact other.1 (UInt16.toNat_inj.mp same)

/-! ## Exactness -/

/-- The entries of a text are those of its lines, numbered as positions number them. -/
structure LineHashesExact (text : Text) : Prop where
  lines : textLines text =
    (buildSourcePositionIndex text).lineStarts.map (lineFrom text)
  keys : (computeGithubPrimaryLocationLineHashes text).keys =
    (range (textLines text).length).map (· + 1)
  entries : ∀ line < (textLines text).length,
    (computeGithubPrimaryLocationLineHashes text).get? (line + 1) = some (lineEntry text line)
  found : ∀ (primary : SourceRange) path, (checkPosition
    (buildSourcePositionIndex text) primary.start path).Clean →
      (primaryLocationLineHash text primary).isSome = true

theorem line_lt_of_expectedPosition {positions : IrValidation.SourcePositionIndex} {utf16Offset : Nat}
    {position : SourcePosition}
    (found : expectedPosition positions utf16Offset = some position) :
    position.line < positions.lineStarts.length := by
  unfold expectedPosition at found
  split at found
  · dsimp only at found
    split at found
    · cases found
    · rcases Option.map_eq_some_iff.mp found with ⟨start, here, rfl⟩
      exact (List.getElem?_eq_some_iff.mp here).1
  · cases found

theorem count_eq_occurrence (line : Nat) :
    ((range (line + 1)).map (lineHash text)).count (lineHash text line) =
      occurrence text line := by
  rw [count, countP_map, countP_eq_length_filter, occurrence]
  refine congrArg length (filter_congr fun earlier _ => ?_)
  rw [Function.comp_apply]
  exact beq_eq_decide _ _

theorem listed_text : ∃ out, computeGithubPrimaryLocationLineHashes text = out.1 ∧
      Listed ((range (textLines text).length).map (lineHash text)) out := by
  refine ⟨_, hashes_eq text, ?_⟩
  rw [scan_eq, foldl_emit_lines (textLines_inLine text), suffixHashes_textLines]
  exact listed_outputLines _

/-- Every line has one entry, its hash and how often the hash has occurred; hence every diagnostic
with a valid range finds the hash of its line. -/
theorem lineHashes_exact (text : Text) : LineHashesExact text := by
  rcases listed_text text with ⟨out, eq, listed⟩
  have length : ((range (textLines text).length).map (lineHash text)).length =
      (textLines text).length := by
    rw [length_map, length_range]
  have keys := listed.keys
  rw [length] at keys
  rw [← eq] at keys
  refine ⟨textLines_eq text, keys, ?_, ?_⟩
  · intro line inside
    have here : ((range (textLines text).length).map (lineHash text))[line]? =
        some (lineHash text line) := by
      rw [getElem?_map, getElem?_range inside]
      rfl
    rw [eq, listed.entries line _ here, lineEntry, ← map_take, take_range,
      Nat.min_eq_left inside, count_eq_occurrence]
  · intro primary path clean
    unfold checkPosition at clean
    split at clean
    · exact absurd clean (cons_ne_nil _ _)
    · next expected found =>
        have same : ¬ (expected.byteOffset ≠ primary.start.byteOffset ∨
            expected.line ≠ primary.start.line ∨
            expected.utf16Column ≠ primary.start.utf16Column) := Checked.clean_pushIf.mp clean
        rw [not_or, not_or, not_not, not_not] at same
        have inside := line_lt_of_expectedPosition found
        rw [primaryLocationLineHash, OrderedMap.isSome_get?, keys, ← same.2.1, textLines_eq, length_map]
        exact mem_map_of_mem (mem_range.mpr inside)

end AgentContextLint.SarifLineHashes
