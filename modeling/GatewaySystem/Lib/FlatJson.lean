import GatewaySystem.Lib.Decimal
import GatewaySystem.Lib.Json
import Mathlib.Algebra.BigOperators.Group.List.Basic
import Mathlib.Algebra.Order.Group.Nat

/-!
# Flat JSON texts

The texts of objects whose members have no parts, and of arrays of such objects:
a writer that puts no blanks between tokens, and a reader that splits a text into
tokens first. What was written is read back, where the integers fit a type of 64
bits.
-/

namespace Json

/-- The character of a hexadecimal digit. -/
def hexDigit (value : UInt8) : UInt8 := if value < 10 then 48 + value else 87 + value

/-- A byte inside a string; control characters, the quote and the backslash may
not stand there as they are. -/
def escape (byte : UInt8) : List UInt8 :=
  if byte < 32 ∨ byte = 34 ∨ byte = 92 then
    [92, 117, 48, 48, hexDigit (byte / 16), hexDigit (byte % 16)]
  else [byte]

def quote (value : List UInt8) : List UInt8 := 34 :: (value.flatMap escape ++ [34])

/-- The text of a value without parts. -/
def atom : Json → List UInt8
  | bool true => [116, 114, 117, 101]
  | bool false => [102, 97, 108, 115, 101]
  | unsigned value => Decimal.format value
  | integer value => Decimal.format value
  | float literal => literal
  | string value => quote value
  | _ => [110, 117, 108, 108]

def memberText (entry : List UInt8 × Json) : List UInt8 := quote entry.1 ++ 58 :: atom entry.2

/-- Texts with commas between them. -/
def commas : List (List UInt8) → List UInt8
  | [] => []
  | [last] => last
  | first :: rest => first ++ 44 :: commas rest

theorem commas_cons_cons (first next : List UInt8) (rest : List (List UInt8)) :
    commas (first :: next :: rest) = first ++ 44 :: commas (next :: rest) := rfl

/-- The text of a value whose members have no parts. -/
def flat : Json → List UInt8
  | object members => 123 :: (commas (members.map memberText) ++ [125])
  | value => value.atom

theorem length_commas {parts : List (List UInt8)} (h : parts ≠ []) :
    (commas parts).length + 1 = (parts.map fun part => part.length + 1).sum := by
  induction parts with
  | nil => exact absurd rfl h
  | cons first rest ih =>
      cases rest with
      | nil => simp [commas]
      | cons next rest =>
          have hrest := ih (by simp)
          rw [List.map_cons, List.sum_cons, ← hrest, commas_cons_cons, List.length_append,
            List.length_cons]
          omega

/-- The length of an object: names and values apart. -/
theorem length_flat {members : List (List UInt8 × Json)} (h : members ≠ []) :
    (flat (.object members)).length = 1 +
      (members.map fun entry => (quote entry.1).length + 2).sum +
      (members.map fun entry => entry.2.atom.length).sum := by
  have hcommas := length_commas (mt List.map_eq_nil_iff.mp h : members.map memberText ≠ [])
  have hsum : ((members.map memberText).map fun part => part.length + 1).sum =
      (members.map fun entry => (quote entry.1).length + 2).sum +
        (members.map fun entry => entry.2.atom.length).sum := by
    rw [← List.sum_map_add, List.map_map]
    refine congrArg List.sum (List.map_congr_left fun entry _ => ?_)
    simp only [Function.comp_apply, memberText, List.length_append, List.length_cons]
    omega
  rw [flat, List.length_cons, List.length_append, List.length_singleton]
  omega

/-! ### Tokens -/

inductive Token where
  | mark (byte : UInt8)
  | string (value : List UInt8)
  | word (value : List UInt8)

def marks : List UInt8 := [44, 58, 91, 93, 123, 125]

/-- What ends a word. -/
def separators : List UInt8 := marks ++ [34, 9, 10, 13, 32]

def hexValue (digit : UInt8) : UInt8 := if digit < 58 then digit - 48 else digit - 87

def wordTokens (front : List UInt8) : List Token := if front = [] then [] else [.word front]

/-- The tokens of a text behind the beginning `front` of a string or of a word. A
string that is not closed ends in a mark that no reader takes. -/
def tokens : Bool → List UInt8 → List UInt8 → List Token
  | true, _, [] => [.mark 34]
  | true, front, 92 :: 117 :: 48 :: 48 :: high :: low :: rest =>
      tokens true (front ++ [16 * hexValue high + hexValue low]) rest
  | true, front, byte :: rest =>
      if byte = 34 then .string front :: tokens false [] rest
      else if byte < 32 then [.mark 34]
      else tokens true (front ++ [byte]) rest
  | false, front, [] => wordTokens front
  | false, front, byte :: rest =>
      if byte ∉ separators then tokens false (front ++ [byte]) rest
      else wordTokens front ++
        if byte = 34 then tokens true [] rest
        else if byte ∈ marks then .mark byte :: tokens false [] rest
        else tokens false [] rest

theorem hexValue_hexDigit (byte : UInt8) :
    16 * hexValue (hexDigit (byte / 16)) + hexValue (hexDigit (byte % 16)) = byte := by
  have hall : ∀ n : Fin 256, 16 * hexValue (hexDigit (UInt8.ofFin n / 16)) +
      hexValue (hexDigit (UInt8.ofFin n % 16)) = UInt8.ofFin n := by decide +kernel
  exact hall byte.toFin

theorem tokens_escape (front : List UInt8) (byte : UInt8) (rest : List UInt8) :
    tokens true front (escape byte ++ rest) = tokens true (front ++ [byte]) rest := by
  unfold escape
  split
  · simp only [List.cons_append, List.nil_append, tokens, hexValue_hexDigit]
  · next hplain =>
      simp only [not_or] at hplain
      rw [List.singleton_append, tokens, if_neg hplain.2.1, if_neg hplain.1]
      rintro _ _ _ rfl
      exact absurd rfl hplain.2.2

theorem tokens_quote (value rest : List UInt8) :
    tokens false [] (quote value ++ rest) = .string value :: tokens false [] rest := by
  have hstring : ∀ front, tokens true front (value.flatMap escape ++ 34 :: rest) =
      .string (front ++ value) :: tokens false [] rest := by
    induction value with
    | nil => simp [tokens]
    | cons byte value ih =>
        intro front
        rw [List.flatMap_cons, List.append_assoc, tokens_escape, ih, List.append_assoc,
          List.singleton_append]
  have hopen : tokens false [] (34 :: (value.flatMap escape ++ 34 :: rest)) =
      tokens true [] (value.flatMap escape ++ 34 :: rest) := by
    rw [tokens, if_neg (by decide)]
    rfl
  rw [quote, List.cons_append, List.append_assoc, List.singleton_append, hopen, hstring]
  rfl

theorem tokens_word {word : List UInt8} (hword : ∀ byte ∈ word, byte ∉ separators) {mark : UInt8}
    (hmark : mark ∈ marks) (front rest : List UInt8) :
    tokens false front (word ++ mark :: rest) =
      wordTokens (front ++ word) ++ .mark mark :: tokens false [] rest := by
  induction word generalizing front with
  | nil =>
      have hquote : mark ≠ 34 := by
        rintro rfl
        exact absurd hmark (by decide)
      simp [tokens, separators, hquote, hmark]
  | cons byte word ih =>
      rw [List.cons_append, tokens, if_pos (hword byte List.mem_cons_self),
        ih fun b hb => hword b (List.mem_cons_of_mem _ hb), List.append_assoc,
        List.singleton_append]

theorem tokens_mark {mark : UInt8} (hmark : mark ∈ marks) (rest : List UInt8) :
    tokens false [] (mark :: rest) = .mark mark :: tokens false [] rest := by
  have hempty := tokens_word (List.forall_mem_nil _) hmark [] rest
  exact hempty

/-! ### Values -/

def Token.json? : Token → Option Json
  | .mark _ => none
  | .string value => some (.string value)
  | .word value =>
      if value = atom (.bool true) then some (.bool true)
      else if value = atom (.bool false) then some (.bool false)
      else (Decimal.parse value).bind fun n =>
        if -2 ^ 63 ≤ n ∧ n < 2 ^ 64 then some (ofInt n) else none

/-- A value without parts that is read back in front of a mark. -/
def Plain (value : Json) : Prop :=
  ∃ token : Token, token.json? = some value ∧ ∀ mark ∈ marks, ∀ rest,
    tokens false [] (value.atom ++ mark :: rest) = token :: .mark mark :: tokens false [] rest

theorem plain_string (value : List UInt8) : Plain (.string value) := by
  refine ⟨.string value, rfl, fun mark hmark rest => ?_⟩
  rw [atom, tokens_quote, tokens_mark hmark]

theorem plain_of_word {value : Json} (hjson : (Token.word value.atom).json? = some value)
    (hword : ∀ byte ∈ value.atom, byte ∉ separators) (hne : value.atom ≠ []) : Plain value := by
  refine ⟨_, hjson, fun mark hmark rest => ?_⟩
  rw [tokens_word hword hmark, wordTokens, List.nil_append, if_neg hne, List.singleton_append]

theorem plain_bool (value : Bool) : Plain (.bool value) := by
  cases value <;> exact plain_of_word rfl (by decide +kernel) (by decide)

theorem plain_ofInt {n : ℤ} (h : -2 ^ 63 ≤ n ∧ n < 2 ^ 64) : Plain (ofInt n) := by
  have hatom : (ofInt n).atom = Decimal.format n := by
    rw [ofInt]
    split
    · next hpos => rw [atom, Int.toNat_of_nonneg hpos]
    · rfl
  have hne : ∀ word, Decimal.parse word = none → Decimal.format n ≠ word := by
    rintro word hnone rfl
    simp at hnone
  refine plain_of_word ?_ ?_ ?_ <;> rw [hatom]
  · rw [Token.json?, if_neg (hne _ (by decide)), if_neg (hne _ (by decide)),
      Decimal.parse_format, Option.bind_some, if_pos h]
  · intro byte hbyte hseparator
    have hnone : ∀ b ∈ separators, Decimal.digit? b = none ∧ b ≠ 45 := by decide +kernel
    exact Decimal.notMem_format (hnone byte hseparator).1 (hnone byte hseparator).2 hbyte
  · exact hne [] rfl

/-! ### Objects and arrays -/

/-- Reads the members of an object and, in an array, the objects after it. -/
def readMembers (items? : Option (List Json)) (front : List (List UInt8 × Json)) :
    List Token → Option Json
  | .string name :: .mark 58 :: value :: .mark mark :: rest =>
      match value.json? with
      | none => none
      | some value =>
          let members := front ++ [(name, value)]
          if mark = 44 then readMembers items? members rest
          else if mark = 125 then
            match items?, rest with
            | none, [] => some (.object members)
            | some items, [.mark 93] => some (.array (items ++ [.object members]))
            | some items, .mark 44 :: .mark 123 :: rest =>
                readMembers (some (items ++ [.object members])) [] rest
            | _, _ => none
          else none
  | _ => none

/-- A text of members is read up to the last one. -/
theorem readMembers_commas (items? : Option (List Json)) {members : List (List UInt8 × Json)}
    (hne : members ≠ []) (hplain : ∀ entry ∈ members, Plain entry.2)
    (front : List (List UInt8 × Json)) (rest : List UInt8) :
    ∃ earlier name token value, Token.json? token = some value ∧
      earlier ++ [(name, value)] = front ++ members ∧
      readMembers items? front
          (tokens false [] (commas (members.map memberText) ++ 125 :: rest)) =
        readMembers items? earlier
          (.string name :: .mark 58 :: token :: .mark 125 :: tokens false [] rest) := by
  induction members generalizing front with
  | nil => exact absurd rfl hne
  | cons entry members ih =>
      obtain ⟨token, hjson, htokens⟩ := hplain entry List.mem_cons_self
      have hmember : ∀ mark ∈ marks, ∀ rest,
          tokens false [] (memberText entry ++ mark :: rest) =
            .string entry.1 :: .mark 58 :: token :: .mark mark :: tokens false [] rest := by
        intro mark hmark rest
        rw [memberText, List.append_assoc, tokens_quote, List.cons_append,
          tokens_mark (by decide), htokens mark hmark]
      cases members with
      | nil =>
          refine ⟨front, entry.1, token, entry.2, hjson, rfl, ?_⟩
          exact congrArg _ (hmember 125 (by decide) rest)
      | cons next members =>
          obtain ⟨earlier, name, last, value, hlast, hmembers, hread⟩ :=
            ih (by simp) (fun own hown => hplain own (List.mem_cons_of_mem _ hown))
              (front ++ [entry])
          refine ⟨earlier, name, last, value, hlast, by simpa using hmembers, ?_⟩
          rw [← hread, List.map_cons, List.map_cons, commas_cons_cons, List.append_assoc,
            List.cons_append, hmember 44 (by decide), readMembers, hjson]
          simp

/-- An object that is read back. -/
def Flat (value : Json) : Prop :=
  ∃ members, value = .object members ∧ members ≠ [] ∧ ∀ entry ∈ members, Plain entry.2

/-- The reader and the writer. -/
def flatLibrary : Library where
  parse body :=
    match tokens false [] body with
    | .mark 123 :: rest => ((readMembers none [] rest).map Except.ok).getD (.error .parse)
    | [.mark 91, .mark 93] => .ok (.array [])
    | .mark 91 :: .mark 123 :: rest =>
        ((readMembers (some []) [] rest).map Except.ok).getD (.error .parse)
    | _ => .error .parse
  dump
    | .array items => 91 :: (commas (items.map flat) ++ [93])
    | value => value.flat

theorem tokens_flat (members : List (List UInt8 × Json)) (rest : List UInt8) :
    tokens false [] (flat (.object members) ++ rest) = .mark 123 ::
      tokens false [] (commas (members.map memberText) ++ 125 :: rest) := by
  rw [flat, List.cons_append, tokens_mark (by decide), List.append_assoc, List.singleton_append]

theorem parse_dump_object {value : Json} (h : Flat value) :
    flatLibrary.parse (flatLibrary.dump value) = .ok value := by
  obtain ⟨members, rfl, hne, hplain⟩ := h
  obtain ⟨earlier, name, token, value, hjson, hmembers, hread⟩ :=
    readMembers_commas none hne hplain [] []
  have htext := tokens_flat members []
  rw [List.append_nil] at htext
  simp only [flatLibrary, htext, hread, readMembers, hjson]
  simp [hmembers, tokens, wordTokens]

/-- The objects of an array. -/
theorem readMembers_items (items : List Json) {objects : List Json} (hobjects : objects ≠ [])
    (hflat : ∀ object ∈ objects, Flat object) :
    ∃ rest, tokens false [] (commas (objects.map flat) ++ [93]) = .mark 123 :: rest ∧
      readMembers (some items) [] rest = some (.array (items ++ objects)) := by
  induction objects generalizing items with
  | nil => exact absurd rfl hobjects
  | cons object objects ih =>
      obtain ⟨members, rfl, hne, hplain⟩ := hflat object List.mem_cons_self
      cases objects with
      | nil =>
          obtain ⟨earlier, name, token, value, hjson, hmembers, hread⟩ :=
            readMembers_commas (some items) hne hplain [] [93]
          refine ⟨_, tokens_flat members [93], ?_⟩
          rw [hread, tokens_mark (by decide), readMembers, hjson]
          simp [hmembers, tokens, wordTokens]
      | cons next objects =>
          obtain ⟨rest, hrest, hitems⟩ := ih (items ++ [.object members]) (by simp)
            fun own hown => hflat own (List.mem_cons_of_mem _ hown)
          obtain ⟨earlier, name, token, value, hjson, hmembers, hread⟩ :=
            readMembers_commas (some items) hne hplain []
              (44 :: (commas ((next :: objects).map flat) ++ [93]))
          refine ⟨_, by
            rw [List.map_cons, List.map_cons, commas_cons_cons, ← List.map_cons,
              List.append_assoc, List.cons_append]
            exact tokens_flat .., ?_⟩
          rw [hread, tokens_mark (by decide), hrest, readMembers, hjson]
          simpa [hmembers] using hitems

theorem parse_dump_array {items : List Json} (hflat : ∀ item ∈ items, Flat item) :
    flatLibrary.parse (flatLibrary.dump (.array items)) = .ok (.array items) := by
  cases items with
  | nil => rfl
  | cons item items =>
      obtain ⟨rest, hrest, hread⟩ := readMembers_items [] (by simp) hflat
      have hopen := tokens_mark (show (91 : UInt8) ∈ marks by decide)
      simp only [flatLibrary, hopen, hrest, hread]
      rfl

end Json
