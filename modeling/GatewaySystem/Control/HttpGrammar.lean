import GatewaySystem.Control.HttpResponseParser
import Mathlib.Data.List.GetD

/-!
# The grammar of the replies

`Accepted` says without the parser which byte strings are replies: a status line
and header fields, the blank line, and a body of the announced length. The lines
of the head are found by `Search.exists_pieces`, and along them the loop of
`parseHeaders` is a fold of `readField`. `Sound` collects what must never happen
in the parser's arithmetic and error reports, one lemma for each function.
-/

namespace GatewaySystem

namespace HttpResponseParser

/-! ### Exits -/

/-- A failure is reported as one: not as a complete reply, and not because of an
overflow. -/
def Sound {α : Type} (computation : Except Exit α) : Prop :=
  ∀ exit, computation = .error exit →
    ∃ error statusCode, exit = .fail error statusCode ∧ error ≠ .none ∧ error ≠ .httpStatusError

section Sound

variable {α β : Type}

theorem sound_ok (value : α) : Sound (.ok value : Except Exit α) := nofun

theorem sound_fail {error : HttpError} (statusCode : ℕ)
    (h : error ≠ .none ∧ error ≠ .httpStatusError) :
    Sound (.error (.fail error statusCode) : Except Exit α) := by
  rintro _ ⟨⟩
  exact ⟨error, statusCode, rfl, h⟩

theorem Sound.bind {computation : Except Exit α} {next : α → Except Exit β}
    (h : Sound computation) (hnext : ∀ value, computation = .ok value → Sound (next value)) :
    Sound (computation >>= next) := by
  intro exit hexit
  cases hrun : computation with
  | error other =>
      rw [hrun] at hexit
      obtain rfl : other = exit := by injection hexit
      exact h other hrun
  | ok value =>
      rw [hrun] at hexit
      exact hnext value hrun exit hexit

end Sound

@[simp] theorem ok_bind {α β : Type} (value : α) (next : α → Except Exit β) :
    (Except.ok value >>= next) = next value := rfl

theorem addSize_eq {a b : ℕ} (h : a + b < 2 ^ 64) : addSize a b = .ok (a + b) := if_pos h

theorem subSize_eq {a b : ℕ} (h : b ≤ a) : subSize a b = .ok (a - b) := if_pos h

theorem mulSize_eq {a b : ℕ} (h : a * b < 2 ^ 64) : mulSize a b = .ok (a * b) := if_pos h

/-! ### Values -/

/-- A text without the blanks around it. -/
def trimmed (value : Bytes) : Bytes := (value.dropWhile isBlank).rdropWhile isBlank

variable {value : Bytes}

theorem skipBlanks_eq (hsize : value.length < 2 ^ 64) {fuel first : ℕ}
    (hfuel : value.length ≤ first + fuel) (hfirst : first ≤ value.length) :
    skipBlanks value fuel first =
      .ok (first + ((value.drop first).takeWhile isBlank).length) := by
  induction fuel generalizing first with
  | zero =>
      have hend : value.drop first = [] := List.drop_eq_nil_of_le (by omega)
      simp [skipBlanks, hend]
  | succ fuel ih =>
      rw [skipBlanks]
      by_cases hlt : first < value.length
      · have hdrop : value.drop first = value.getD first 0 :: value.drop (first + 1) := by
          rw [List.drop_eq_getElem_cons hlt, List.getD_eq_getElem _ _ hlt]
        by_cases hblank : isBlank (value.getD first 0)
        · rw [if_pos ⟨hlt, hblank⟩, addSize_eq (by omega), hdrop,
            List.takeWhile_cons_of_pos hblank]
          refine (ih (by omega) (by omega)).trans ?_
          rw [List.length_cons]
          congr 1
          omega
        · rw [if_neg fun h => hblank h.2, hdrop, List.takeWhile_cons_of_neg hblank]
          rfl
      · have hend : value.drop first = [] := List.drop_eq_nil_of_le (by omega)
        rw [if_neg fun h => hlt h.1, hend]
        rfl

theorem dropBlanks_eq {first last : ℕ} (hfirst : first ≤ last) (hlast : last ≤ value.length) :
    first ≤ dropBlanks value first last ∧
      (value.drop first).take (dropBlanks value first last - first) =
        ((value.drop first).take (last - first)).rdropWhile isBlank := by
  induction last with
  | zero =>
      obtain rfl : first = 0 := by omega
      simp [dropBlanks]
  | succ last ih =>
      rw [dropBlanks]
      by_cases hlt : first < last + 1
      · have htake : (value.drop first).take (last + 1 - first) =
            (value.drop first).take (last - first) ++ [value.getD last 0] := by
          rw [Nat.succ_sub (by omega), List.take_add_one, List.getElem?_drop,
            Nat.add_sub_cancel' (by omega : first ≤ last),
            List.getElem?_eq_getElem (by omega), List.getD_eq_getElem _ _ (by omega)]
          rfl
        by_cases hblank : isBlank (value.getD last 0)
        · rw [if_pos ⟨hlt, hblank⟩, htake, List.rdropWhile_concat_pos _ _ _ hblank]
          exact ih (by omega) (by omega)
        · rw [if_neg fun h => hblank h.2, htake, List.rdropWhile_concat_neg _ _ _ hblank]
          exact ⟨hfirst, rfl⟩
      · obtain rfl : first = last + 1 := by omega
        rw [if_neg fun h => hlt h.1]
        simp

theorem trimAsciiWhitespace_eq (hsize : value.length < 2 ^ 64) :
    trimAsciiWhitespace value = .ok (trimmed value) := by
  have hskip := skipBlanks_eq hsize (le_of_eq (Nat.zero_add value.length).symm)
    (Nat.zero_le value.length)
  rw [List.drop_zero, Nat.zero_add] at hskip
  have hlen : (value.takeWhile isBlank).length ≤ value.length := (List.takeWhile_prefix _).length_le
  have hdrop : value.drop (value.takeWhile isBlank).length = value.dropWhile isBlank := by
    have hsplit := List.takeWhile_append_dropWhile (p := isBlank) (l := value)
    nth_rewrite 2 [← hsplit]
    rw [List.drop_left]
  obtain ⟨hfirst, htake⟩ := dropBlanks_eq hlen le_rfl
  rw [hdrop] at htake
  have hall : (value.dropWhile isBlank).take (value.length - (value.takeWhile isBlank).length) =
      value.dropWhile isBlank := by
    rw [← hdrop, ← List.length_drop, List.take_length]
  rw [hall] at htake
  rw [trimAsciiWhitespace, hskip, ok_bind, subSize_eq hfirst, ok_bind, hdrop, htake]
  rfl

theorem le_of_readDigits {start n : ℕ} {bytes : Bytes}
    (h : Decimal.readDigits start bytes = some n) : start ≤ n := by
  induction bytes generalizing start with
  | nil =>
      obtain rfl : start = n := by simpa [Decimal.readDigits] using h
      exact le_rfl
  | cons byte bytes ih =>
      rw [Decimal.readDigits, List.foldlM_cons] at h
      obtain ⟨next, hnext, hrest⟩ := Option.bind_eq_some_iff.mp h
      obtain ⟨digit, -, rfl⟩ := Option.map_eq_some_iff.mp hnext
      have hle := ih hrest
      omega

/-- The loop over the characters of a length finds the number they spell, if it
is within the limit. -/
theorem readLength_eq (characters : Bytes) {parsed : ℕ} (hparsed : parsed ≤ maxBodyBytes) :
    ∃ answer, readLength parsed characters = .ok answer ∧ ∀ n ≤ maxBodyBytes,
      answer = some n ↔ Decimal.readDigits parsed characters = some n := by
  induction characters generalizing parsed with
  | nil =>
      refine ⟨some parsed, rfl, fun n _ => ?_⟩
      simp [Decimal.readDigits]
  | cons character characters ih =>
      have hmax : maxBodyBytes = 1048576 := rfl
      rw [readLength]
      by_cases hdigit : 48 ≤ character.toNat ∧ character.toNat ≤ 57
      · have hrange : ¬ (character < 48 ∨ 57 < character) := by
          simp only [UInt8.lt_iff_toNat_lt, UInt8.toNat_ofNat]
          omega
        have hread : ∀ n, Decimal.readDigits parsed (character :: characters) = some n ↔
            Decimal.readDigits (10 * parsed + (character.toNat - 48)) characters = some n := by
          intro n
          simp [Decimal.readDigits, Decimal.digit?, if_pos hdigit]
        have hsub : subSize maxBodyBytes (character.toNat - 48) =
            .ok (maxBodyBytes - (character.toNat - 48)) := subSize_eq (by omega)
        simp only [if_neg hrange, hsub, ok_bind, hread]
        by_cases hroom : (maxBodyBytes - (character.toNat - 48)) / 10 < parsed
        · rw [if_pos hroom]
          refine ⟨_, rfl, fun n hn => ⟨fun heq => ?_, fun heq => ?_⟩⟩
          · injection heq with heq
            omega
          · have hle := le_of_readDigits heq
            omega
        · have htens : mulSize parsed 10 = .ok (10 * parsed) := by
            rw [mulSize_eq (by omega), Nat.mul_comm]
          rw [if_neg hroom, htens, ok_bind, addSize_eq (by omega), ok_bind]
          exact ih (by omega)
      · have hrange : character < 48 ∨ 57 < character := by
          simp only [UInt8.lt_iff_toNat_lt, UInt8.toNat_ofNat]
          omega
        rw [if_pos hrange]
        refine ⟨none, rfl, fun n _ => ?_⟩
        simp [Decimal.readDigits, Decimal.digit?, if_neg hdigit]

theorem parseContentLength_eq (hsize : value.length < 2 ^ 64) :
    ∃ answer, parseContentLength value = .ok answer ∧ ∀ n ≤ maxBodyBytes,
      answer = some n ↔ Decimal.natural? (trimmed value) = some n := by
  rw [parseContentLength, trimAsciiWhitespace_eq hsize, ok_bind]
  by_cases hempty : trimmed value = []
  · rw [if_pos hempty]
    exact ⟨none, rfl, fun n _ => by simp [Decimal.natural?, hempty]⟩
  · rw [if_neg hempty]
    simp only [Decimal.natural?, if_neg hempty]
    exact readLength_eq _ (Nat.zero_le _)

/-! ### Header lines -/

/-- The name of a header line, in lower case: the bytes before its first colon,
which must not stand at the beginning. -/
def fieldName? (line : Bytes) : Option Bytes :=
  match Search.find (text ":") line with
  | none => none
  | some 0 => none
  | some separator => some (lowerAscii (line.take separator))

/-- The bytes behind the first colon of a header line. -/
def fieldValue (line : Bytes) : Bytes :=
  match Search.find (text ":") line with
  | none => []
  | some separator => line.drop (separator + 1)

/-- The lines that announce the length of the body. -/
def lengthLines (lines : List Bytes) : List Bytes :=
  lines.filter fun line => fieldName? line = some (text "content-length")

/-- The names that no line may have. -/
def refusedNames : List Bytes := [text "transfer-encoding", text "upgrade", text "content-encoding"]

/-- Every line has a name, and none that is refused. -/
def Plain (lines : List Bytes) : Prop :=
  ∀ line ∈ lines, ∃ name, fieldName? line = some name ∧ name ∉ refusedNames

/-- The length that a header line announces. -/
def Announces (line : Bytes) (length : ℕ) : Prop :=
  Decimal.natural? (trimmed (fieldValue line)) = some length ∧ length ≤ maxBodyBytes

section Fields

variable {statusCode : ℕ} {fields : Fields} {line : Bytes} {lines : List Bytes} {name : Bytes}
  {n : ℕ}

theorem readField_unnamed (h : fieldName? line = none) :
    readField statusCode fields line = .error (.fail .malformedResponse statusCode) := by
  cases hfind : Search.find (text ":") line with
  | none => simp only [readField, hfind]
  | some separator =>
      cases separator with
      | zero => simp only [readField, hfind]
      | succ separator => simp [fieldName?, hfind] at h

theorem readField_named (hsize : line.length < 2 ^ 64) (h : fieldName? line = some name) :
    readField statusCode fields line = readNamed statusCode fields name (fieldValue line) := by
  rw [fieldName?] at h
  rw [readField, fieldValue]
  split at h
  · cases h
  · cases h
  · next separator hpos hfind =>
      have hroom : separator + 1 ≤ line.length := Search.find_add_length_le hfind
      cases h
      rw [hfind]
      simp only [addSize_eq (by omega : separator + 1 < 2 ^ 64), ok_bind]

theorem fieldValue_length_le (line : Bytes) : (fieldValue line).length ≤ line.length := by
  rw [fieldValue]
  split
  · exact Nat.zero_le _
  · rw [List.length_drop]
    omega

theorem readNamed_sound (name : Bytes) {value : Bytes} (hsize : value.length < 2 ^ 64) :
    Sound (readNamed statusCode fields name value) := by
  obtain ⟨answer, hanswer, -⟩ := parseContentLength_eq hsize
  rw [readNamed, hanswer, ok_bind]
  split
  · split
    · exact sound_fail _ (by decide)
    · cases answer with
      | none => exact sound_fail _ (by decide)
      | some parsed =>
          simp only
          split
          · exact sound_fail _ (by decide)
          · exact sound_ok _
  · split
    · exact sound_ok _
    · split
      · exact sound_fail _ (by decide)
      · exact sound_ok _

theorem readField_sound (hsize : line.length < 2 ^ 64) :
    Sound (readField statusCode fields line) := by
  cases hname : fieldName? line with
  | none =>
      rw [readField_unnamed hname]
      exact sound_fail _ (by decide)
  | some name =>
      have hle := fieldValue_length_le line
      rw [readField_named hsize hname]
      exact readNamed_sound name (by omega)

theorem foldlM_readField_sound (hsize : ∀ line ∈ lines, line.length < 2 ^ 64) :
    Sound (lines.foldlM (readField statusCode) fields) := by
  induction lines generalizing fields with
  | nil => exact sound_ok _
  | cons line lines ih =>
      rw [List.foldlM_cons]
      refine (readField_sound (hsize line List.mem_cons_self)).bind fun next _ => ?_
      exact ih fun other hother => hsize other (List.mem_cons_of_mem _ hother)

theorem announces_iff {answer : Option ℕ}
    (hanswer : ∀ n ≤ maxBodyBytes,
    answer = some n ↔ Decimal.natural? (trimmed (fieldValue line)) = some n) :
    Announces line n ↔ answer = some n ∧ n ≤ maxBodyBytes := by
  constructor
  · rintro ⟨hvalue, hmax⟩
    exact ⟨(hanswer n hmax).mpr hvalue, hmax⟩
  · rintro ⟨hanswered, hmax⟩
    exact ⟨(hanswer n hmax).mp hanswered, hmax⟩

/-- A second length is refused; a first one is kept if it is announced. -/
theorem readNamed_length {fields' : Fields} (hsize : line.length < 2 ^ 64) :
    readNamed statusCode fields (text "content-length") (fieldValue line) = .ok fields' ↔
      fields.contentLength = none ∧
        ∃ n, Announces line n ∧ fields' = { fields with contentLength := some n } := by
  have hle := fieldValue_length_le line
  obtain ⟨answer, hparse, hanswer⟩ :=
    parseContentLength_eq (by omega : (fieldValue line).length < 2 ^ 64)
  simp only [announces_iff hanswer]
  rw [readNamed, if_pos rfl, hparse, ok_bind]
  cases hlength : fields.contentLength with
  | some m => simp
  | none =>
      cases answer with
      | none => simp
      | some parsed =>
          by_cases hmax : maxBodyBytes < parsed
          · simp only [Option.isSome_none, Bool.false_eq_true, if_false, if_pos hmax, reduceCtorEq,
              Option.some.injEq, true_and, false_iff, not_exists]
            rintro n ⟨⟨rfl, hn⟩, -⟩
            exact absurd hn (not_le.mpr hmax)
          · simp only [Option.isSome_none, Bool.false_eq_true, if_false, if_neg hmax,
              Option.some.injEq, true_and]
            constructor
            · intro h
              exact ⟨parsed, ⟨rfl, not_lt.mp hmax⟩, (Except.ok.inj h).symm⟩
            · rintro ⟨n, ⟨rfl, -⟩, rfl⟩
              rfl

/-- A refused name is an error, or leaves the mark of a transfer encoding. -/
theorem readNamed_refused (value : Bytes) {fields' : Fields} (hname : name ∈ refusedNames)
    (h : readNamed statusCode fields name value = .ok fields') :
    fields'.hasTransferEncoding = true := by
  have hlength : name ≠ text "content-length" := by
    rintro rfl
    exact absurd hname (by decide)
  rw [readNamed, if_neg hlength] at h
  by_cases htransfer : name = text "transfer-encoding"
  · rw [if_pos htransfer] at h
    cases h
    rfl
  · have hrefused : name = text "upgrade" ∨ name = text "content-encoding" := by
      simpa [refusedNames, htransfer] using hname
    rw [if_neg htransfer, if_pos hrefused] at h
    cases h

theorem readNamed_other (value : Bytes) (hlength : name ≠ text "content-length")
    (hname : name ∉ refusedNames) : readNamed statusCode fields name value = .ok fields := by
  simp only [refusedNames, List.mem_cons, List.not_mem_nil, or_false, not_or] at hname
  rw [readNamed, if_neg hlength, if_neg hname.1, if_neg (not_or.mpr hname.2)]

theorem plain_cons : Plain (line :: lines) ↔
    (∃ name, fieldName? line = some name ∧ name ∉ refusedNames) ∧ Plain lines :=
  List.forall_mem_cons

theorem lengthLines_cons_length (h : fieldName? line = some (text "content-length")) :
    lengthLines (line :: lines) = line :: lengthLines lines := by
  rw [lengthLines, List.filter_cons_of_pos (by simp [h]), lengthLines]

theorem lengthLines_cons_other (h : fieldName? line = some name)
    (hname : name ≠ text "content-length") : lengthLines (line :: lines) = lengthLines lines := by
  rw [lengthLines, List.filter_cons_of_neg (by simp [h, hname]), lengthLines]

/-- What the lines must say for the loop to end with a length and without a
transfer encoding, when it begins with `fields`. -/
def Announced (fields : Fields) (lines : List Bytes) (n : ℕ) : Prop :=
  fields.hasTransferEncoding = false ∧ Plain lines ∧
    (fields.contentLength = some n ∧ lengthLines lines = [] ∨
      fields.contentLength = none ∧ ∃ line, lengthLines lines = [line] ∧ Announces line n)

theorem announced_nil : Announced fields [] n ↔ fields = ⟨some n, false⟩ := by
  obtain ⟨length, encoding⟩ := fields
  simp [Announced, Plain, lengthLines, and_comm]

theorem announced_cons_length (hname : fieldName? line = some (text "content-length")) :
    Announced fields (line :: lines) n ↔ fields.contentLength = none ∧
      ∃ m, Announces line m ∧ Announced { fields with contentLength := some m } lines n := by
  rw [Announced, plain_cons, lengthLines_cons_length hname]
  constructor
  · rintro ⟨hencoding, ⟨-, hplain⟩, ⟨-, hnil⟩ | ⟨hnone, other, hother, hannounced⟩⟩
    · cases hnil
    · obtain ⟨rfl, hnil⟩ := List.cons.inj hother
      exact ⟨hnone, n, hannounced, hencoding, hplain, .inl ⟨rfl, hnil⟩⟩
  · rintro ⟨hnone, m, hannounced, hencoding, hplain, ⟨hsome, hnil⟩ | ⟨hsome, -⟩⟩
    · obtain rfl : m = n := Option.some.inj hsome
      exact ⟨hencoding, ⟨⟨_, hname, by decide⟩, hplain⟩,
        .inr ⟨hnone, line, by rw [hnil], hannounced⟩⟩
    · cases hsome

theorem announced_cons_other (h : fieldName? line = some name)
    (hlength : name ≠ text "content-length") (hname : name ∉ refusedNames) :
    Announced fields (line :: lines) n ↔ Announced fields lines n := by
  have hplain : (∃ name, fieldName? line = some name ∧ name ∉ refusedNames) := ⟨name, h, hname⟩
  rw [Announced, Announced, plain_cons, lengthLines_cons_other h hlength, and_iff_right hplain]

theorem foldlM_readField_eq_ok (hsize : ∀ line ∈ lines, line.length < 2 ^ 64) :
    lines.foldlM (readField statusCode) fields = .ok ⟨some n, false⟩ ↔
      Announced fields lines n := by
  induction lines generalizing fields with
  | nil =>
      rw [announced_nil]
      exact ⟨fun h => Except.ok.inj h, fun h => congrArg Except.ok h⟩
  | cons line lines ih =>
      have hline := hsize line List.mem_cons_self
      have hrest : ∀ other ∈ lines, other.length < 2 ^ 64 := fun other hother =>
        hsize other (List.mem_cons_of_mem _ hother)
      rw [List.foldlM_cons, bind_eq_ok]
      cases hname : fieldName? line with
      | none =>
          rw [readField_unnamed hname]
          constructor
          · rintro ⟨_, ⟨⟩, -⟩
          · rintro ⟨-, hplain, -⟩
            obtain ⟨name, hsome, -⟩ := hplain line List.mem_cons_self
            rw [hname] at hsome
            cases hsome
      | some name =>
          rw [readField_named hline hname]
          by_cases hlength : name = text "content-length"
          · subst hlength
            rw [announced_cons_length hname]
            simp only [readNamed_length hline]
            constructor
            · rintro ⟨_, ⟨hnone, m, hm, rfl⟩, hfold⟩
              exact ⟨hnone, m, hm, (ih hrest).mp hfold⟩
            · rintro ⟨hnone, m, hm, hannounced⟩
              exact ⟨_, ⟨hnone, m, hm, rfl⟩, (ih hrest).mpr hannounced⟩
          · by_cases hrefused : name ∈ refusedNames
            · constructor
              · rintro ⟨fields', hread, hfold⟩
                have hencoding := readNamed_refused _ hrefused hread
                rw [((ih hrest).mp hfold).1] at hencoding
                cases hencoding
              · rintro ⟨-, hplain, -⟩
                obtain ⟨other, hsome, hother⟩ := hplain line List.mem_cons_self
                rw [hname] at hsome
                cases hsome
                exact absurd hrefused hother
            · rw [readNamed_other _ hlength hrefused, announced_cons_other hname hlength hrefused]
              constructor
              · rintro ⟨_, ⟨⟩, hfold⟩
                exact (ih hrest).mp hfold
              · intro hannounced
                exact ⟨fields, rfl, (ih hrest).mpr hannounced⟩

end Fields

/-! ### The status line -/

/-- A status line and its code. -/
def StatusLine (line : Bytes) (code : ℕ) : Prop :=
  ∃ version digits rest : Bytes, (version = text "HTTP/1.0" ∨ version = text "HTTP/1.1") ∧
    line = version ++ 32 :: (digits ++ rest) ∧ digits.length = 3 ∧
    Decimal.natural? digits = some code ∧ 100 ≤ code ∧ code ≤ 599 ∧
    (rest = [] ∨ ∃ more, rest = 32 :: more)

theorem digit?_eq_some {byte : UInt8} {value : ℕ} : Decimal.digit? byte = some value ↔
    48 ≤ byte.toNat ∧ byte.toNat ≤ 57 ∧ value = byte.toNat - 48 := by
  rw [Decimal.digit?]
  by_cases h : 48 ≤ byte.toNat ∧ byte.toNat ≤ 57
  · rw [if_pos h]
    simp [h, eq_comm]
  · rw [if_neg h]
    constructor
    · simp
    · intro hdigit
      exact absurd ⟨hdigit.1, hdigit.2.1⟩ h

theorem natural?_three {a b c : UInt8} {code : ℕ} : Decimal.natural? [a, b, c] = some code ↔
    (48 ≤ a.toNat ∧ a.toNat ≤ 57) ∧ (48 ≤ b.toNat ∧ b.toNat ≤ 57) ∧
      (48 ≤ c.toNat ∧ c.toNat ≤ 57) ∧
      code = (a.toNat - 48) * 100 + (b.toNat - 48) * 10 + (c.toNat - 48) := by
  rw [Decimal.natural?, if_neg (by simp), Decimal.readDigits]
  simp only [List.foldlM_cons, List.foldlM_nil, Option.bind_eq_bind, Option.bind_eq_some_iff,
    Option.map_eq_some_iff, digit?_eq_some]
  constructor
  · rintro ⟨_, ⟨_, ⟨ha, ha', rfl⟩, rfl⟩, _, ⟨_, ⟨hb, hb', rfl⟩, rfl⟩,
      _, ⟨_, ⟨hc, hc', rfl⟩, rfl⟩, h⟩
    injection h with h
    exact ⟨⟨ha, ha'⟩, ⟨hb, hb'⟩, ⟨hc, hc'⟩, by omega⟩
  · rintro ⟨ha, hb, hc, rfl⟩
    refine ⟨_, ⟨_, ⟨ha.1, ha.2, rfl⟩, rfl⟩, _, ⟨_, ⟨hb.1, hb.2, rfl⟩, rfl⟩, _,
      ⟨_, ⟨hc.1, hc.2, rfl⟩, rfl⟩, ?_⟩
    exact congrArg some (by omega)

theorem readStatusLine_eq {version rest : Bytes} {space a b c : UInt8} (h : version.length = 8) :
    readStatusLine (version ++ space :: a :: b :: c :: rest) =
      if (version ≠ text "HTTP/1.0" ∧ version ≠ text "HTTP/1.1") ∨ space ≠ 32 ∨ a < 49 ∨ 53 < a ∨
          b < 48 ∨ 57 < b ∨ c < 48 ∨ 57 < c ∨ (rest ≠ [] ∧ rest.getD 0 0 ≠ 32) then none
      else some ((a.toNat - 48) * 100 + (b.toNat - 48) * 10 + (c.toNat - 48)) := by
  obtain ⟨v0, v1, v2, v3, v4, v5, v6, v7, rfl⟩ : ∃ v0 v1 v2 v3 v4 v5 v6 v7,
      version = [v0, v1, v2, v3, v4, v5, v6, v7] := by
    match version, h with
    | [v0, v1, v2, v3, v4, v5, v6, v7], _ => exact ⟨v0, v1, v2, v3, v4, v5, v6, v7, rfl⟩
  cases rest with
  | nil => simp [readStatusLine]
  | cons byte rest => simp +arith [readStatusLine]

theorem readStatusLine_eq_some {line : Bytes} {code : ℕ} :
    readStatusLine line = some code ↔ StatusLine line code := by
  constructor
  · intro h
    have hlen : ¬ line.length < 12 := by
      intro hlt
      rw [readStatusLine, if_pos (.inl hlt)] at h
      cases h
    obtain ⟨space, a, b, c, rest, hdrop⟩ : ∃ space a b c rest,
        line.drop 8 = space :: a :: b :: c :: rest := by
      have hdrop : 4 ≤ (line.drop 8).length := by
        rw [List.length_drop]
        omega
      match line.drop 8, hdrop with
      | space :: a :: b :: c :: rest, _ => exact ⟨space, a, b, c, rest, rfl⟩
    have hversion : (line.take 8).length = 8 := List.length_take_of_le (by omega)
    have hline : line = line.take 8 ++ space :: a :: b :: c :: rest := by
      rw [← hdrop, List.take_append_drop]
    rw [hline, readStatusLine_eq hversion] at h
    split at h
    · cases h
    · next hvalid =>
        simp only [not_or, not_and, not_not, UInt8.lt_iff_toNat_lt, UInt8.toNat_ofNat] at hvalid
        obtain ⟨htext, rfl, ha, ha', hb, hb', hc, hc', hrest⟩ := hvalid
        injection h with hcode
        refine ⟨line.take 8, [a, b, c], rest, ?_, hline, rfl, ?_, by omega, by omega, ?_⟩
        · by_cases hzero : line.take 8 = text "HTTP/1.0"
          · exact .inl hzero
          · exact .inr (htext hzero)
        · exact natural?_three.mpr ⟨by omega, by omega, by omega, hcode.symm⟩
        · cases rest with
          | nil => exact .inl rfl
          | cons byte more =>
              obtain rfl : byte = 32 := hrest (List.cons_ne_nil _ _)
              exact .inr ⟨more, rfl⟩
  · rintro ⟨version, digits, rest, hversion, rfl, hthree, hcode, hmin, hmax, hrest⟩
    obtain ⟨a, b, c, rfl⟩ := List.length_eq_three.mp hthree
    obtain ⟨ha, hb, hc, rfl⟩ := natural?_three.mp hcode
    have height : version.length = 8 := by
      rcases hversion with rfl | rfl <;> rfl
    refine (readStatusLine_eq height).trans ?_
    rw [if_neg]
    simp only [not_or, not_and, not_not, UInt8.lt_iff_toNat_lt, UInt8.toNat_ofNat]
    refine ⟨fun hzero => hversion.resolve_left hzero, trivial, ?_, ?_, ?_, ?_, ?_, ?_, ?_⟩
    iterate 6 · omega
    · rcases hrest with rfl | ⟨more, rfl⟩
      · exact fun hne => absurd rfl hne
      · exact fun _ => rfl

/-! ### The head -/

/-- A head: the status line, and the header lines behind it. -/
def head (status : Bytes) (lines : List Bytes) : Bytes := status ++ lines.flatMap (crlf ++ ·)

/-- A byte string cut at its first blank line, with the head cut into its lines. -/
structure Cut (reply status : Bytes) (lines : List Bytes) (body : Bytes) : Prop where
  reply_eq : reply = head status lines ++ (crlf ++ crlf ++ body)
  first : Search.find (crlf ++ crlf) reply = some (head status lines).length
  status_line : Search.find crlf status = none
  header_line : ∀ line ∈ lines, Search.find crlf line = none

/-- What `parseHeaders` makes of the lines of a head. -/
def readHead (status : Bytes) (lines : List Bytes) : Except Exit (ℕ × ℕ) :=
  if lines = [] then .error (.fail .malformedResponse 0)
  else
    match readStatusLine status with
    | none => .error (.fail .malformedResponse 0)
    | some statusCode => do
        let fields ← lines.foldlM (readField statusCode) {}
        concludeFields statusCode fields

section Head

variable {reply status body : Bytes} {lines : List Bytes} {fields : Fields}

/-- A byte string with a blank line can be cut. -/
theorem exists_cut {i : ℕ} (h : Search.find (crlf ++ crlf) reply = some i) :
    ∃ status lines body, Cut reply status lines body ∧ i = (head status lines).length := by
  obtain ⟨hlen, ⟨body, hbody⟩, -⟩ := Search.find_eq_some.mp h
  obtain ⟨status, lines, hhead, hstatus, hlines⟩ :=
    Search.exists_pieces (by decide : crlf ≠ []) (reply.take i)
  have hsize : (head status lines).length = i := by
    rw [head, ← hhead, List.length_take_of_le hlen]
  refine ⟨status, lines, body, ⟨?_, by rw [h, hsize], hstatus, hlines⟩, hsize.symm⟩
  rw [head, ← hhead, hbody, List.take_append_drop]

/-- A byte string whose lines have no return in them is cut where it was put
together. -/
theorem cut_head {status : Bytes} (hstatus : 13 ∉ status)
    (hlines : ∀ line ∈ lines, 13 ∉ line ∧ line ≠ []) (body : Bytes) :
    Cut (head status lines ++ (crlf ++ crlf ++ body)) status lines body := by
  have hnone : ∀ {line : Bytes}, 13 ∉ line → Search.find crlf line = none := by
    intro line hline
    have hfind := Search.find_append_of_notMem [10] hline []
    rw [List.append_nil] at hfind
    exact hfind
  refine ⟨rfl, ?_, hnone hstatus, fun line hline => hnone (hlines line hline).1⟩
  -- the next line stands in for the status line
  induction lines generalizing status with
  | nil =>
      have hhere : Search.find (crlf ++ crlf) (crlf ++ crlf ++ body) = some 0 :=
        Search.find_eq_some.mpr ⟨Nat.zero_le _, List.prefix_append _ _, nofun⟩
      simp only [head, List.flatMap_nil, List.append_nil]
      refine (Search.find_append_of_notMem [10, 13, 10] hstatus _).trans ?_
      exact congrArg (Option.map (status.length + ·)) hhere
  | cons line lines ih =>
      obtain ⟨hreturn, hne⟩ := hlines line List.mem_cons_self
      have hrest := ih hreturn fun other hother => hlines other (List.mem_cons_of_mem _ hother)
      obtain ⟨byte, more, rfl⟩ := List.exists_cons_of_ne_nil hne
      have hbyte : byte ≠ 13 := fun heq => hreturn (heq ▸ List.mem_cons_self)
      have hbytes : head status ((byte :: more) :: lines) ++ (crlf ++ crlf ++ body) =
          status ++ (13 :: 10 :: (head (byte :: more) lines ++ (crlf ++ crlf ++ body))) := by
        simp [head, crlf]
      have hhere : ¬ crlf ++ crlf <+: 13 :: 10 :: (head (byte :: more) lines ++
          (crlf ++ crlf ++ body)) := by
        rintro ⟨tail, htail⟩
        have hthird : 13 = byte := by
          simp only [crlf, head, List.cons_append, List.nil_append, List.cons.injEq] at htail
          exact htail.2.2.1
        exact hbyte hthird.symm
      have hnext : ¬ crlf ++ crlf <+: 10 :: (head (byte :: more) lines ++
          (crlf ++ crlf ++ body)) := by
        rintro ⟨tail, htail⟩
        simp [crlf] at htail
      have hfind := Search.find_append_of_notMem [10, 13, 10] hstatus
        (13 :: 10 :: (head (byte :: more) lines ++ (crlf ++ crlf ++ body)))
      rw [hbytes]
      refine hfind.trans ?_
      rw [show (13 :: [10, 13, 10] : Bytes) = crlf ++ crlf from rfl, Search.find_cons hhere,
        Search.find_cons hnext, hrest]
      simp only [Option.map_some, head, List.flatMap_cons, List.length_append, crlf,
        List.length_cons, List.length_nil]
      congr 1
      omega

/-- Bytes behind the blank line belong to the body. -/
theorem Cut.append (h : Cut reply status lines body) (more : Bytes) :
    Cut (reply ++ more) status lines (body ++ more) where
  reply_eq := by
    rw [h.reply_eq]
    simp
  first := Search.find_append h.first more
  status_line := h.status_line
  header_line := h.header_line

/-- No header line is empty: that would be an earlier blank line. -/
theorem Cut.line_ne_nil (h : Cut reply status lines body) {line : Bytes} (hline : line ∈ lines) :
    line ≠ [] := by
  rintro rfl
  obtain ⟨front, back, rfl⟩ := List.append_of_mem hline
  have hreply : reply = head status front ++ (crlf ++ (back.flatMap (crlf ++ ·) ++
      (crlf ++ crlf ++ body))) := by
    rw [h.reply_eq, head, head]
    simp
  obtain ⟨rest, hrest⟩ : ∃ rest, back.flatMap (crlf ++ ·) ++ (crlf ++ crlf ++ body) =
      crlf ++ rest := by
    cases back with
    | nil => exact ⟨crlf ++ body, by simp⟩
    | cons line back =>
        exact ⟨line ++ (back.flatMap (crlf ++ ·) ++ (crlf ++ crlf ++ body)), by simp⟩
  refine (Search.find_eq_some.mp h.first).2.2 (head status front).length ?_ ⟨rest, ?_⟩
  · simp [head, crlf]
  · rw [hreply, List.drop_left, hrest, List.append_assoc]

theorem length_lines_le (status : Bytes) (lines : List Bytes) :
    2 * lines.length ≤ (head status lines).length := by
  induction lines with
  | nil => simp [head]
  | cons line lines ih =>
      simp only [head, List.flatMap_cons, List.length_append, List.length_cons, crlf,
        List.length_nil] at ih ⊢
      omega

theorem readFields_end {received : Bytes} {headerEnd statusCode fuel cursor : ℕ}
    (h : headerEnd ≤ cursor) :
    readFields received headerEnd statusCode fuel cursor fields = .ok fields := by
  cases fuel with
  | zero => rfl
  | succ fuel => rw [readFields, if_neg (not_lt.mpr h)]

/-- One turn of the loop reads one line. -/
theorem readFields_line {received line rest : Bytes} {headerEnd statusCode fuel cursor : ℕ}
    (hsize : received.length < 2 ^ 64) (hat : received.drop cursor = line ++ (crlf ++ rest))
    (hline : Search.find crlf line = none) (hne : line ≠ [])
    (hend : cursor + line.length ≤ headerEnd) :
    readFields received headerEnd statusCode (fuel + 1) cursor fields =
      (readField statusCode fields line >>= fun fields =>
        readFields received headerEnd statusCode fuel (cursor + line.length + 2) fields) := by
  have hpos : 0 < line.length := List.length_pos_iff.mpr hne
  have hroom : cursor + line.length + 2 ≤ received.length := by
    have hlength := congrArg List.length hat
    simp only [List.length_drop, List.length_append, crlf, List.length_cons,
      List.length_nil] at hlength
    omega
  have hfind : Search.findFrom crlf received cursor = some (cursor + line.length) := by
    rw [Search.findFrom, hat, Search.find_append_pattern (by decide) hline]
    rfl
  have htake : (received.drop cursor).take (cursor + line.length - cursor) = line := by
    rw [hat, Nat.add_sub_cancel_left, List.take_left]
  rw [readFields, if_pos (by omega), hfind]
  simp only [if_neg (not_lt.mpr hend), if_neg (by omega : ¬ cursor + line.length = cursor),
    subSize_eq (Nat.le_add_right cursor line.length), ok_bind, htake,
    addSize_eq (by omega : cursor + line.length + 2 < 2 ^ 64)]

/-- From the beginning of a line the loop reads that line and those behind it. -/
theorem readFields_eq {received tail line : Bytes} {headerEnd statusCode fuel cursor : ℕ}
    (hsize : received.length < 2 ^ 64)
    (hat : received.drop cursor = line ++ (lines.flatMap (crlf ++ ·) ++ (crlf ++ tail)))
    (hend : headerEnd = cursor + (line ++ lines.flatMap (crlf ++ ·)).length)
    (hlines : ∀ other ∈ line :: lines, Search.find crlf other = none ∧ other ≠ [])
    (hfuel : lines.length < fuel) :
    readFields received headerEnd statusCode fuel cursor fields =
      (line :: lines).foldlM (readField statusCode) fields := by
  induction lines generalizing line cursor fuel fields with
  | nil =>
      obtain ⟨hline, hne⟩ := hlines line List.mem_cons_self
      obtain ⟨fuel, rfl⟩ := Nat.exists_eq_succ_of_ne_zero (Nat.ne_of_gt hfuel)
      rw [List.flatMap_nil, List.append_nil] at hend
      rw [readFields_line hsize hat hline hne hend.ge, List.foldlM_cons]
      congr 1
      funext fields'
      exact readFields_end (by omega)
  | cons next lines ih =>
      obtain ⟨hline, hne⟩ := hlines line List.mem_cons_self
      obtain ⟨fuel, rfl⟩ := Nat.exists_eq_succ_of_ne_zero (Nat.ne_of_gt (Nat.zero_lt_of_lt hfuel))
      rw [List.flatMap_cons, List.append_assoc, List.append_assoc] at hat
      have htwo : crlf.length = 2 := rfl
      have hnext : headerEnd = cursor + line.length + 2 +
          (next ++ lines.flatMap (crlf ++ ·)).length := by
        simp only [hend, List.flatMap_cons, List.length_append, htwo]
        omega
      rw [readFields_line hsize hat hline hne (by omega), List.foldlM_cons]
      congr 1
      funext fields'
      refine ih ?_ hnext (fun other hother => hlines other (List.mem_cons_of_mem _ hother))
        (by simpa using hfuel)
      rw [Nat.add_assoc, ← List.drop_drop, hat, ← List.append_assoc line]
      exact List.drop_left' (by rw [List.length_append, htwo])

/-- `parseHeaders` reads the head of a byte string that is cut at its blank line. -/
theorem parseHeaders_eq {parser : HttpResponseParser} (h : Cut parser.received status lines body)
    (hsize : parser.received.length < 2 ^ 64) (hlength : parser.contentLength = none) :
    parser.parseHeaders (head status lines).length = readHead status lines := by
  have hstatus : Search.find crlf parser.received = some status.length := by
    have hreply : ∃ rest, parser.received = status ++ (crlf ++ rest) := by
      rw [h.reply_eq, head]
      cases lines with
      | nil => exact ⟨crlf ++ body, by simp⟩
      | cons line lines =>
          exact ⟨line ++ (lines.flatMap (crlf ++ ·) ++ (crlf ++ crlf ++ body)), by simp⟩
    obtain ⟨rest, hrest⟩ := hreply
    rw [hrest, Search.find_append_pattern (by decide) h.status_line]
  rw [parseHeaders, hstatus, readHead]
  cases lines with
  | nil => simp [head]
  | cons line lines =>
      have htwo : crlf.length = 2 := rfl
      have hhead : (head status (line :: lines)).length =
          status.length + 2 + (line ++ lines.flatMap (crlf ++ ·)).length := by
        simp only [head, List.flatMap_cons, List.length_append, htwo]
        omega
      have hroom : (head status (line :: lines)).length ≤ parser.received.length := by
        rw [h.reply_eq, List.length_append]
        omega
      have hbelow : ¬ (head status (line :: lines)).length ≤ status.length := by omega
      have htake : parser.received.take status.length = status := by
        rw [h.reply_eq, head, List.append_assoc, List.take_left]
      have hat : parser.received.drop (status.length + 2) =
          line ++ (lines.flatMap (crlf ++ ·) ++ (crlf ++ (crlf ++ body))) := by
        rw [h.reply_eq, head, List.flatMap_cons]
        simp only [List.append_assoc]
        rw [← List.append_assoc status]
        exact List.drop_left' (by rw [List.length_append, htwo])
      have hfuel := length_lines_le status (line :: lines)
      rw [List.length_cons] at hfuel
      simp only [if_neg hbelow, htake, if_neg (List.cons_ne_nil line lines),
        addSize_eq (by omega : status.length + 2 < 2 ^ 64), ok_bind, hlength]
      cases readStatusLine status with
      | none => rfl
      | some statusCode =>
          simp only
          rw [readFields_eq hsize hat hhead
            (fun other hother => ⟨h.header_line other hother, h.line_ne_nil hother⟩) (by omega)]

/-- A head that announces a status code and the length of a body. -/
def Described (status : Bytes) (lines : List Bytes) (code length : ℕ) : Prop :=
  StatusLine status code ∧ lines ≠ [] ∧ Plain lines ∧
    ∃ line, lengthLines lines = [line] ∧ Announces line length

theorem concludeFields_eq_ok {statusCode code length : ℕ} :
    concludeFields statusCode fields = .ok (code, length) ↔
      statusCode = code ∧ fields = ⟨some length, false⟩ := by
  obtain ⟨announced, encoding⟩ := fields
  cases encoding <;> cases announced <;> simp [concludeFields]

theorem concludeFields_sound (statusCode : ℕ) (fields : Fields) :
    Sound (concludeFields statusCode fields) := by
  obtain ⟨announced, encoding⟩ := fields
  cases encoding <;> cases announced
  · exact sound_fail _ (by decide)
  · exact sound_ok _
  · exact sound_fail _ (by decide)
  · exact sound_fail _ (by decide)

theorem readHead_eq_ok {code length : ℕ} (hsize : ∀ line ∈ lines, line.length < 2 ^ 64) :
    readHead status lines = .ok (code, length) ↔ Described status lines code length := by
  rw [readHead, Described, ← readStatusLine_eq_some]
  by_cases hlines : lines = []
  · simp [hlines]
  · rw [if_neg hlines]
    cases readStatusLine status with
    | none => simp
    | some statusCode =>
        have hfold : ∀ n, lines.foldlM (readField statusCode) {} = .ok ⟨some n, false⟩ ↔
            Plain lines ∧ ∃ line, lengthLines lines = [line] ∧ Announces line n := by
          intro n
          simp [foldlM_readField_eq_ok hsize, Announced]
        simp only [bind_eq_ok, concludeFields_eq_ok, Option.some.injEq, ← hfold]
        constructor
        · rintro ⟨_, hread, rfl, rfl⟩
          exact ⟨rfl, hlines, hread⟩
        · rintro ⟨rfl, -, hread⟩
          exact ⟨_, hread, rfl, rfl⟩

theorem readHead_sound (status : Bytes) (hsize : ∀ line ∈ lines, line.length < 2 ^ 64) :
    Sound (readHead status lines) := by
  rw [readHead]
  split
  · exact sound_fail _ (by decide)
  · split
    · exact sound_fail _ (by decide)
    · exact (foldlM_readField_sound hsize).bind fun fields _ => concludeFields_sound _ fields

theorem Cut.line_length_lt (h : Cut reply status lines body) (hsize : reply.length < 2 ^ 64)
    {line : Bytes} (hline : line ∈ lines) : line.length < 2 ^ 64 := by
  obtain ⟨front, back, rfl⟩ := List.append_of_mem hline
  have hlength := congrArg List.length h.reply_eq
  simp only [head, List.flatMap_append, List.flatMap_cons, List.length_append] at hlength
  omega

end Head

/-! ### Replies -/

/-- The parser behind the blank line, with the body still to be judged. -/
def opened (received : Bytes) (bodyOffset code length : ℕ) : HttpResponseParser where
  received := received
  contentLength := some length
  bodyOffset := bodyOffset
  statusCode := code
  headersParsed := true

/-- The error under which a complete reply is returned. -/
def statusError (code : ℕ) : HttpError :=
  if 200 ≤ code ∧ code < 300 then .none else .httpStatusError

section Replies

variable {reply status body : Bytes} {lines : List Bytes} {code length : ℕ}

theorem Cut.body_length (h : Cut reply status lines body) :
    reply.length - ((head status lines).length + 4) = body.length := by
  rw [h.reply_eq]
  simp [crlf]
  omega

theorem Cut.drop_head (h : Cut reply status lines body) :
    reply.drop ((head status lines).length + 4) = body := by
  rw [h.reply_eq, ← List.append_assoc]
  exact List.drop_left' (by simp [crlf])

/-- What a fresh parser can become when a byte string arrives at once. -/
inductive Outcome (reply : Bytes) : HttpResponseParser → Prop
  | waiting (hfind : Search.find (crlf ++ crlf) reply = none)
      (hshort : reply.length ≤ maxHeaderBytes) : Outcome reply { received := reply }
  | headless (hfind : Search.find (crlf ++ crlf) reply = none)
      (hlong : maxHeaderBytes < reply.length) :
      Outcome reply (fail { received := reply } .headerTooLarge)
  | longHead {status : Bytes} {lines : List Bytes} {body : Bytes}
      (hcut : Cut reply status lines body)
      (hlong : maxHeaderBytes < (head status lines).length + 4) :
      Outcome reply (fail { received := reply } .headerTooLarge)
  | badHead {status : Bytes} {lines : List Bytes} {body : Bytes} {error : HttpError} {code : ℕ}
      (hcut : Cut reply status lines body)
      (hshort : (head status lines).length + 4 ≤ maxHeaderBytes)
      (hread : readHead status lines = .error (.fail error code))
      (hgenuine : error ≠ .none ∧ error ≠ .httpStatusError) :
      Outcome reply (fail { received := reply } error code)
  | reading {status : Bytes} {lines : List Bytes} {body : Bytes} {code length : ℕ}
      (hcut : Cut reply status lines body)
      (hshort : (head status lines).length + 4 ≤ maxHeaderBytes)
      (hread : readHead status lines = .ok (code, length)) (hlt : body.length < length) :
      Outcome reply (opened reply ((head status lines).length + 4) code length)
  | complete {status : Bytes} {lines : List Bytes} {body : Bytes} {code : ℕ}
      (hcut : Cut reply status lines body)
      (hshort : (head status lines).length + 4 ≤ maxHeaderBytes)
      (hread : readHead status lines = .ok (code, body.length)) :
      Outcome reply { opened reply ((head status lines).length + 4) code body.length with
        result := ⟨statusError code, code, body⟩
        done := true }
  | surplus {status : Bytes} {lines : List Bytes} {body : Bytes} {code length : ℕ}
      (hcut : Cut reply status lines body)
      (hshort : (head status lines).length + 4 ≤ maxHeaderBytes)
      (hread : readHead status lines = .ok (code, length)) (hgt : length < body.length) :
      Outcome reply (fail (opened reply ((head status lines).length + 4) code length)
        .malformedResponse code)

/-! Behind a head that is in order, only the length of the body matters. -/

theorem Cut.finish_reading (h : Cut reply status lines body) (hlt : body.length < length) :
    finishBodyIfComplete (opened reply ((head status lines).length + 4) code length) =
      some (opened reply ((head status lines).length + 4) code length) := by
  have hroom : (head status lines).length + 4 ≤ reply.length := Search.find_add_length_le h.first
  simp [finishBodyIfComplete, opened, subSize_eq hroom, h.body_length, hlt.not_gt, hlt]

theorem Cut.finish_complete (h : Cut reply status lines body) (heq : body.length = length) :
    finishBodyIfComplete (opened reply ((head status lines).length + 4) code length) =
      some { opened reply ((head status lines).length + 4) code length with
        result := ⟨statusError code, code, body⟩
        done := true } := by
  subst heq
  have hroom : (head status lines).length + 4 ≤ reply.length := Search.find_add_length_le h.first
  have herror : (if code < 200 ∨ 300 ≤ code then HttpError.httpStatusError else .none) =
      statusError code := by
    by_cases hcode : 200 ≤ code ∧ code < 300
    · rw [statusError, if_pos hcode, if_neg (by omega)]
    · rw [statusError, if_neg hcode, if_pos (by omega)]
  simp only [finishBodyIfComplete, opened, subSize_eq hroom, h.body_length, Option.getD_some,
    lt_irrefl, if_false, h.drop_head, List.take_length]
  rw [← herror]
  rfl

theorem Cut.finish_surplus (h : Cut reply status lines body) (hgt : length < body.length) :
    finishBodyIfComplete (opened reply ((head status lines).length + 4) code length) =
      some (fail (opened reply ((head status lines).length + 4) code length)
        .malformedResponse code) := by
  have hroom : (head status lines).length + 4 ≤ reply.length := Search.find_add_length_le h.first
  simp [finishBodyIfComplete, opened, subSize_eq hroom, h.body_length, hgt]

theorem consume_nil : consume {} [] = some {} := by decide

theorem consume_short (h : Search.find (crlf ++ crlf) reply = none)
    (hshort : reply.length ≤ maxHeaderBytes) :
    consume {} reply = some { received := reply } := by
  simp [consume, h, not_lt.mpr hshort]

theorem consume_long (h : Search.find (crlf ++ crlf) reply = none)
    (hlong : maxHeaderBytes < reply.length) :
    consume {} reply = some (fail { received := reply } .headerTooLarge) := by
  simp [consume, h, hlong]

theorem consume_cut (h : Cut reply status lines body) (hsize : reply.length < 2 ^ 64) :
    consume {} reply =
      if maxHeaderBytes < (head status lines).length + 4 then
        some (fail { received := reply } .headerTooLarge)
      else
        match readHead status lines with
        | .error .overflow => none
        | .error (.fail error code) => some (fail { received := reply } error code)
        | .ok (code, length) =>
            finishBodyIfComplete (opened reply ((head status lines).length + 4) code length) := by
  have hroom : (head status lines).length + 4 ≤ reply.length := Search.find_add_length_le h.first
  have hparse : parseHeaders { received := reply } (head status lines).length =
      readHead status lines := parseHeaders_eq h hsize rfl
  simp only [consume, Bool.false_eq_true, if_false, List.nil_append, h.first,
    addSize_eq (by omega : (head status lines).length + 4 < 2 ^ 64), hparse]
  rfl

/-- A fresh parser computes without overflow. -/
theorem consume_outcome (hsize : reply.length < 2 ^ 64) :
    ∃ parser, consume {} reply = some parser ∧ Outcome reply parser := by
  cases hfind : Search.find (crlf ++ crlf) reply with
  | none =>
      by_cases hlong : maxHeaderBytes < reply.length
      · exact ⟨_, consume_long hfind hlong, .headless hfind hlong⟩
      · exact ⟨_, consume_short hfind (not_lt.mp hlong), .waiting hfind (not_lt.mp hlong)⟩
  | some i =>
      obtain ⟨status, lines, body, hcut, -⟩ := exists_cut hfind
      rw [consume_cut hcut hsize]
      by_cases hlong : maxHeaderBytes < (head status lines).length + 4
      · rw [if_pos hlong]
        exact ⟨_, rfl, .longHead hcut hlong⟩
      · have hshort := not_lt.mp hlong
        have hsound := readHead_sound status fun line hline => hcut.line_length_lt hsize hline
        rw [if_neg hlong]
        cases hread : readHead status lines with
        | error exit =>
            obtain ⟨error, code, rfl, hgenuine⟩ := hsound exit hread
            exact ⟨_, rfl, .badHead hcut hshort hread hgenuine⟩
        | ok described =>
            obtain ⟨code, length⟩ := described
            rcases lt_trichotomy body.length length with hlt | rfl | hgt
            · exact ⟨_, hcut.finish_reading hlt, .reading hcut hshort hread hlt⟩
            · exact ⟨_, hcut.finish_complete rfl, .complete hcut hshort hread⟩
            · exact ⟨_, hcut.finish_surplus hgt, .surplus hcut hshort hread hgt⟩

/-- The grammar of complete replies: `reply` carries `code` and `body`. -/
def Accepted (reply : Bytes) (code : ℕ) (body : Bytes) : Prop :=
  ∃ status lines, Cut reply status lines body ∧ (head status lines).length + 4 ≤ maxHeaderBytes ∧
    Described status lines code body.length

/-- What the lines of the head say does not depend on how they were found. -/
theorem accepted_iff (h : Cut reply status lines body) (hsize : reply.length < 2 ^ 64)
    {body' : Bytes} : Accepted reply code body' ↔
      (head status lines).length + 4 ≤ maxHeaderBytes ∧
        readHead status lines = .ok (code, body.length) ∧ body' = body := by
  constructor
  · rintro ⟨status', lines', hcut, hshort, hdescribed⟩
    have hlength : (head status' lines').length = (head status lines).length :=
      Option.some.inj (hcut.first.symm.trans h.first)
    obtain rfl : body' = body := by rw [← hcut.drop_head, hlength, h.drop_head]
    have hread : readHead status lines = readHead status' lines' := by
      have hparse : parseHeaders { received := reply } _ = _ := parseHeaders_eq h hsize rfl
      have hparse' : parseHeaders { received := reply } _ = _ := parseHeaders_eq hcut hsize rfl
      rw [hlength] at hparse'
      exact hparse.symm.trans hparse'
    refine ⟨hlength ▸ hshort, hread.trans ?_, rfl⟩
    exact (readHead_eq_ok fun line hline => hcut.line_length_lt hsize hline).mpr hdescribed
  · rintro ⟨hshort, hread, rfl⟩
    refine ⟨status, lines, h, hshort, ?_⟩
    exact (readHead_eq_ok fun line hline => h.line_length_lt hsize hline).mp hread

/-- What is said of the result of one reply. -/
def Judged (reply : Bytes) (result : HttpResult) : Prop :=
  (∀ code body, Accepted reply code body → result = ⟨statusError code, code, body⟩) ∧
    ((result.error = .none ∨ result.error = .httpStatusError) ↔
      ∃ code body, Accepted reply code body) ∧
    ((¬ ∃ code body, Accepted reply code body) → result.body = [] ∧ result.ok = false)

theorem judged_failure (error : HttpError) (statusCode : ℕ)
    (herror : error ≠ .none ∧ error ≠ .httpStatusError)
    (hnone : ¬ ∃ code body, Accepted reply code body) :
    Judged reply ⟨error, statusCode, []⟩ := by
  refine ⟨fun code body h => absurd ⟨code, body, h⟩ hnone, ⟨?_, fun h => absurd h hnone⟩, ?_⟩
  · rintro (h | h)
    · exact absurd h herror.1
    · exact absurd h herror.2
  · intro _
    simp [HttpResult.ok, herror.1]

theorem judged_complete (h : Cut reply status lines body) (hsize : reply.length < 2 ^ 64)
    (hshort : (head status lines).length + 4 ≤ maxHeaderBytes)
    (hread : readHead status lines = .ok (code, body.length)) :
    Judged reply ⟨statusError code, code, body⟩ := by
  have haccepted : Accepted reply code body := (accepted_iff h hsize).mpr ⟨hshort, hread, rfl⟩
  refine ⟨fun code' body' h' => ?_, ⟨fun _ => ⟨code, body, haccepted⟩, fun _ => ?_⟩,
    fun hnone => absurd ⟨code, body, haccepted⟩ hnone⟩
  · obtain ⟨-, hread', rfl⟩ := (accepted_iff h hsize).mp h'
    rw [hread] at hread'
    cases hread'
    rfl
  · rw [statusError]
    split
    · exact .inl rfl
    · exact .inr rfl

theorem Outcome.judged {parser : HttpResponseParser} (h : Outcome reply parser)
    (hsize : reply.length < 2 ^ 64) : Judged reply parser.finishOnEof.result := by
  have hread_of : ∀ {status body : Bytes} {lines : List Bytes}, Cut reply status lines body →
      (∃ code body, Accepted reply code body) →
        (head status lines).length + 4 ≤ maxHeaderBytes ∧
          ∃ code, readHead status lines = .ok (code, body.length) := by
    rintro status body lines hcut ⟨code, body', haccepted⟩
    obtain ⟨hshort, hread, -⟩ := (accepted_iff hcut hsize).mp haccepted
    exact ⟨hshort, code, hread⟩
  have hheadless : Search.find (crlf ++ crlf) reply = none →
      ¬ ∃ code body, Accepted reply code body := by
    rintro hfind ⟨code, body, status, lines, hcut, -⟩
    rw [hcut.first] at hfind
    cases hfind
  cases h with
  | waiting hfind _ => exact judged_failure .malformedResponse 0 (by decide) (hheadless hfind)
  | headless hfind _ => exact judged_failure .headerTooLarge 0 (by decide) (hheadless hfind)
  | longHead hcut hlong =>
      refine judged_failure .headerTooLarge 0 (by decide) fun haccepted => ?_
      exact absurd (hread_of hcut haccepted).1 (not_le.mpr hlong)
  | badHead hcut _ hread hgenuine =>
      refine judged_failure _ _ hgenuine fun haccepted => ?_
      obtain ⟨-, code, hok⟩ := hread_of hcut haccepted
      rw [hread] at hok
      cases hok
  | reading hcut _ hread hlt =>
      refine judged_failure .prematureEof _ (by decide) fun haccepted => ?_
      obtain ⟨-, code, hok⟩ := hread_of hcut haccepted
      rw [hread] at hok
      cases hok
      exact lt_irrefl _ hlt
  | complete hcut hshort hread => exact judged_complete hcut hsize hshort hread
  | surplus hcut _ hread hgt =>
      refine judged_failure .malformedResponse _ (by decide) fun haccepted => ?_
      obtain ⟨-, code, hok⟩ := hread_of hcut haccepted
      rw [hread] at hok
      cases hok
      exact lt_irrefl _ hgt

end Replies

/-- The parser accepts exactly its grammar, and computes without overflow. -/
theorem parse_judged (reply : Bytes) (hsize : reply.length < 2 ^ 64) :
    ∃ result, parse reply = some result ∧
      (∀ code body, Accepted reply code body → result = ⟨statusError code, code, body⟩) ∧
      ((result.error = .none ∨ result.error = .httpStatusError) ↔
        ∃ code body, Accepted reply code body) ∧
      ((¬ ∃ code body, Accepted reply code body) → result.body = [] ∧ result.ok = false) := by
  obtain ⟨parser, hconsume, houtcome⟩ := consume_outcome hsize
  exact ⟨parser.finishOnEof.result, by rw [parse, hconsume]; rfl, houtcome.judged hsize⟩

namespace Sample

/-- A reply with a body of two bytes. -/
def reply : Bytes := text "HTTP/1.1 200 OK\r\nContent-Length: 2\r\n\r\n\x7b\x7d"

end Sample

theorem parse_judged_reply : Sample.reply.length < 2 ^ 64 ∧
    ∃ code body, Accepted Sample.reply code body := by
  have hsize : Sample.reply.length < 2 ^ 64 := by decide +kernel
  obtain ⟨result, hparse, -, hiff, -⟩ := parse_judged Sample.reply hsize
  have hrun : parse Sample.reply = some ⟨.none, 200, text "\x7b\x7d"⟩ := by decide +kernel
  obtain rfl : result = ⟨.none, 200, text "\x7b\x7d"⟩ := Option.some.inj (hparse.symm.trans hrun)
  exact ⟨hsize, hiff.mp (.inl rfl)⟩

end HttpResponseParser

end GatewaySystem
