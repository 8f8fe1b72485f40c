import Facade.Proofs.Toml.Quoted
import Facade.Toml.Reader

/-!
This module contains the proofs about the lines of a TOML text: lines that say nothing are passed
over, and headers and keys with values go into the document, one after another.
-/

namespace Facade.Toml

open Data Text

section

variable {text rest : List Char} {c : Char}

theorem length_of_dropNewline? (h : dropNewline? text = some rest) : rest.length < text.length := by
  unfold dropNewline? at h
  split at h
  . cases h
    exact Nat.lt_succ_self _
  . cases h
    simp only [List.length_cons]
    omega
  . cases h

theorem length_of_dropComment? (h : dropComment? text = some rest) :
    rest.length ≤ text.length := by
  unfold dropComment? at h
  split at h
  . next inner =>
    have hle : (inner.dropWhile fun c => !isControl c).length ≤ inner.length :=
      (List.dropWhile_suffix _).length_le
    dsimp only at h
    split at h
    . cases h
      simp only [List.length_cons]
      omega
    . cases h
  . cases h
    exact Nat.le_refl _

theorem length_of_line {behind : List Char} (h : dropComment? (text.dropWhile isSpace) = some behind)
    (h' : dropNewline? behind = some rest) : rest.length < text.length :=
  calc rest.length
    _ < behind.length := length_of_dropNewline? h'
    _ ≤ (text.dropWhile isSpace).length := length_of_dropComment? h
    _ ≤ text.length := (List.dropWhile_suffix isSpace).length_le

theorem dropFill?_eq {fuel fuel' : Nat} (h : text.length < fuel) (h' : text.length < fuel') :
    dropFill? fuel text = dropFill? fuel' text := by
  induction fuel generalizing text fuel' with
  | zero => cases h
  | succ fuel ih =>
    obtain ⟨fuel', rfl⟩ := Nat.exists_eq_add_one_of_ne_zero (Nat.ne_zero_of_lt h')
    apply Option.bind_congr
    intro behind hbehind
    cases hrest : dropNewline? behind with
    | none => rfl
    | some rest =>
      have hlength := length_of_line hbehind hrest
      exact ih (by omega) (by omega)

/-- A gap ends with the line, unless a newline makes it go on. -/
theorem dropGap?_eq (text : List Char) :
    dropGap? text = (dropComment? (text.dropWhile isSpace)).bind fun behind =>
      match dropNewline? behind with
      | some rest => dropGap? rest
      | none => some behind := by
  apply Option.bind_congr
  intro behind hbehind
  cases hrest : dropNewline? behind with
  | none => rfl
  | some rest => exact dropFill?_eq (length_of_line hbehind hrest) (Nat.lt_succ_self _)

theorem dropGap?_space (text : List Char) : dropGap? (' ' :: text) = dropGap? text := by
  rw [dropGap?_eq, dropGap?_eq text]
  rfl

def isToken (c : Char) : Bool :=
  !isSpace c && c != '#' && c != '\n' && c != '\r'

theorem dropGap?_token (hc : isToken c = true) (text : List Char) :
    dropGap? (c :: text) = some (c :: text) := by
  simp only [isToken, Bool.and_eq_true, Bool.not_eq_true', bne_iff_ne] at hc
  obtain ⟨⟨⟨hspace, hcomment⟩, hnewline⟩, hreturn⟩ := hc
  have hcomment : dropComment? (c :: text) = some (c :: text) := by
    unfold dropComment?
    split
    . next heq => exact absurd (List.cons.inj heq).1 hcomment
    . rfl
  have hnewline : dropNewline? (c :: text) = none := by
    unfold dropNewline?
    split
    . next heq => exact absurd (List.cons.inj heq).1 hnewline
    . next heq => exact absurd (List.cons.inj heq).1 hreturn
    . rfl
  rw [dropGap?_eq, List.dropWhile_cons_of_neg (by simp [hspace]), hcomment, Option.bind_some,
    hnewline]

/-- Whether a line is empty or a comment. -/
def isSilent : List Char → Bool
  | [] => true
  | c :: cs => c == '#' && cs.all fun c => !isControl c

theorem dropGap?_silent {line : List Char} (hline : isSilent line = true) (rest : List Char) :
    dropGap? (line ++ '\n' :: rest) = dropGap? rest := by
  rw [dropGap?_eq]
  cases line with
  | nil => rfl
  | cons c cs =>
    simp only [isSilent, Bool.and_eq_true, beq_iff_eq] at hline
    obtain ⟨rfl, hcs⟩ := hline
    have hbehind : (cs ++ '\n' :: rest).dropWhile (fun c => !isControl c) = '\n' :: rest := by
      rw [List.dropWhile_append_of_pos (List.all_eq_true.mp hcs)]
      rfl
    rw [List.cons_append, List.dropWhile_cons_of_neg (by decide), dropComment?, hbehind]
    rfl

end

/-- Whether a text is a key without quotes. -/
structure IsKey (key : List Char) : Prop where
  ne_nil : key ≠ []
  keyChars : ∀ c ∈ key, isKeyChar c = true

theorem IsKey.exists_cons {key : List Char} (h : IsKey key) :
    ∃ c cs, key = c :: cs ∧ isKeyChar c = true := by
  cases key with
  | nil => exact absurd rfl h.ne_nil
  | cons c cs => exact ⟨c, cs, rfl, h.keyChars c List.mem_cons_self⟩

theorem ne_of_isKeyChar {c d : Char} (hc : isKeyChar c = true) (hd : isKeyChar d = false) :
    c ≠ d := by
  rintro rfl
  rw [hc] at hd
  cases hd

theorem IsKey.append_ne {key : List Char} (h : IsKey key) {d : Char} (hd : isKeyChar d = false)
    (rest ds : List Char) : key ++ rest ≠ d :: ds := by
  obtain ⟨c, cs, rfl, hc⟩ := h.exists_cons
  intro heq
  exact ne_of_isKeyChar hc hd (List.cons.inj heq).1

theorem isSpace_of_isKeyChar {c : Char} (hc : isKeyChar c = true) : isSpace c = false := by
  rw [isSpace, Bool.or_eq_false_iff, beq_eq_false_iff_ne, beq_eq_false_iff_ne]
  exact ⟨ne_of_isKeyChar hc rfl, ne_of_isKeyChar hc rfl⟩

theorem isToken_of_isKeyChar {c : Char} (hc : isKeyChar c = true) : isToken c = true := by
  simp only [isToken, isSpace_of_isKeyChar hc, Bool.not_false, Bool.true_and, Bool.and_eq_true,
    bne_iff_ne]
  exact ⟨⟨ne_of_isKeyChar hc rfl, ne_of_isKeyChar hc rfl⟩, ne_of_isKeyChar hc rfl⟩

theorem readKey_append {key : List Char} (hkey : IsKey key) {c : Char} (hc : isKeyChar c = false)
    (rest : List Char) : readKey (key ++ c :: rest) = some (String.ofList key, c :: rest) := by
  have htake : (key ++ c :: rest).takeWhile isKeyChar = key := by
    rw [List.takeWhile_append_of_pos hkey.keyChars, List.takeWhile_cons_of_neg (by simp [hc]),
      List.append_nil]
  have hdrop : (key ++ c :: rest).dropWhile isKeyChar = c :: rest := by
    rw [List.dropWhile_append_of_pos hkey.keyChars, List.dropWhile_cons_of_neg (by simp [hc])]
  unfold readKey
  split
  . next heq => exact (hkey.append_ne rfl _ _ heq).elim
  . next heq => exact (hkey.append_ne rfl _ _ heq).elim
  . rw [htake, hdrop]
    exact if_neg (by simp [hkey.ne_nil])

theorem readPath_append {key : List Char} (hkey : IsKey key) {c d : Char}
    (hc : isKeyChar c = false) {rest behind : List Char}
    (hbehind : (c :: rest).dropWhile isSpace = d :: behind) (hd : d ≠ '.') (fuel : Nat) :
    readPath (fuel + 1) (key ++ c :: rest) = some ([String.ofList key], d :: behind) := by
  have hspace : (key ++ c :: rest).dropWhile isSpace = key ++ c :: rest := by
    obtain ⟨e, es, rfl, he⟩ := hkey.exists_cons
    exact List.dropWhile_cons_of_neg (by simp [isSpace_of_isKeyChar he])
  rw [readPath, hspace, readKey_append hkey hc, Option.bind_eq_bind, Option.bind_some]
  dsimp only
  rw [hbehind]
  split
  . next heq => exact absurd (List.cons.inj heq).1 hd
  . rfl

/-- Whether a text at the end of a line is read as a value. It is refused if there is none. -/
structure ReadsAs (value : List Char) (tree? : Option Tree) : Prop where
  start : ∃ c cs, value = c :: cs ∧ isSpace c = false
  read : ∀ {fuel : Nat}, value.length < fuel → ∀ rest,
    readValue fuel depthLimit (value ++ '\n' :: rest) = tree?.map (·, '\n' :: rest)

theorem readsAs_zero : ReadsAs "0".toList (some (.integer 0)) where
  start := ⟨'0', [], rfl, rfl⟩
  read h rest := by
    obtain ⟨fuel, rfl⟩ := Nat.exists_eq_add_one_of_ne_zero (Nat.ne_zero_of_lt h)
    change readValue (fuel + 1) depthLimit ('0' :: '\n' :: rest) = _
    rw [readValue]
    . rfl
    all_goals simp

def quoted? (s : String) : Option Tree :=
  if isPortableText s then some (.text s) else none

theorem readValue_quote (s : String) (fuel room : Nat) {rest : List Char}
    (hrest : rest.head? ≠ some '"') :
    readValue (fuel + 1) room ((quote s).toList ++ rest) = (quoted? s).map (·, rest) := by
  have hread := readString_quote s hrest
  rw [toList_quote, List.cons_append] at hread ⊢
  rw [readValue, hread, quoted?]
  cases isPortableText s <;> rfl

theorem readsAs_quote (s : String) : ReadsAs (quote s).toList (quoted? s) where
  start := ⟨'"', _, toList_quote s, rfl⟩
  read h rest := by
    obtain ⟨fuel, rfl⟩ := Nat.exists_eq_add_one_of_ne_zero (Nat.ne_zero_of_lt h)
    exact readValue_quote s fuel depthLimit (by simp)

def quotedItems (strings : List String) : List Char :=
  [',', ' '].intercalate (strings.map fun s => (quote s).toList)

theorem quotedItems_cons_cons (s s' : String) (strings : List String) :
    quotedItems (s :: s' :: strings) =
      (quote s).toList ++ ',' :: ' ' :: quotedItems (s' :: strings) := by
  rw [quotedItems, List.map_cons, List.map_cons, List.intercalate_cons_cons, List.append_assoc]
  rfl

theorem readItems_space (fuel room : Nat) (text : List Char) :
    readItems fuel room (' ' :: text) = readItems fuel room text := by
  cases fuel with
  | zero => rw [readItems, readItems]
  | succ fuel => rw [readItems, readItems, dropGap?_space]

theorem readItems_quote (s : String) (fuel room : Nat) {c : Char} (hc : isToken c = true)
    (hquote : c ≠ '"') (rest : List Char) :
    readItems (fuel + 2) room ((quote s).toList ++ c :: rest) =
      (quoted? s).bind fun t =>
        match c :: rest with
        | ',' :: rest => do
          let (ts, rest) ← readItems (fuel + 1) room rest
          return (t :: ts, rest)
        | ']' :: rest => some ([t], rest)
        | _ => none := by
  have hgap : dropGap? ((quote s).toList ++ c :: rest) = some ((quote s).toList ++ c :: rest) := by
    rw [toList_quote]
    exact dropGap?_token rfl _
  rw [readItems, hgap, Option.bind_eq_bind, Option.bind_some]
  split
  . next heq =>
    rw [toList_quote] at heq
    cases heq
  . rw [readValue_quote s fuel room (by simpa using hquote)]
    cases quoted? s with
    | none => rfl
    | some t =>
      rw [Option.map_some, Option.bind_eq_bind, Option.bind_some, Option.bind_some]
      dsimp only
      rw [dropGap?_token hc]
      rfl

theorem readItems_comma (s : String) (fuel room : Nat) (rest : List Char) :
    readItems (fuel + 2) room ((quote s).toList ++ ',' :: rest) =
      (quoted? s).bind fun t =>
        (readItems (fuel + 1) room rest).map fun (ts, rest) => (t :: ts, rest) := by
  rw [readItems_quote s fuel room rfl (by decide)]
  apply Option.bind_congr
  intro t _
  change (readItems (fuel + 1) room rest).bind (fun (ts, rest) => some (t :: ts, rest)) = _
  cases readItems (fuel + 1) room rest <;> rfl

theorem readItems_bracket (s : String) (fuel room : Nat) (rest : List Char) :
    readItems (fuel + 2) room ((quote s).toList ++ ']' :: rest) =
      (quoted? s).map fun t => ([t], rest) := by
  rw [readItems_quote s fuel room rfl (by decide)]
  cases quoted? s <;> rfl

theorem readItems_quotes (strings : List String) {fuel : Nat} (h : strings.length < fuel)
    (room : Nat) (rest : List Char) :
    readItems fuel room (quotedItems strings ++ ']' :: rest) =
      if strings.all isPortableText then some (strings.map .text, rest) else none := by
  match strings, fuel, h with
  | [], fuel + 1, _ =>
    have hgap : dropGap? (quotedItems [] ++ ']' :: rest) = some (']' :: rest) :=
      dropGap?_token rfl rest
    rw [readItems, hgap]
    rfl
  | [s], fuel + 2, _ =>
    have hsingle : quotedItems [s] = (quote s).toList := by simp [quotedItems]
    rw [hsingle, readItems_bracket, quoted?, List.all_cons, List.all_nil, Bool.and_true]
    cases isPortableText s <;> rfl
  | s :: s' :: strings, fuel + 2, h =>
    have hrest := readItems_quotes (s' :: strings) (Nat.lt_of_succ_lt_succ h) room rest
    rw [quotedItems_cons_cons, List.append_assoc, List.cons_append, List.cons_append,
      List.all_cons, readItems_comma, readItems_space, hrest, quoted?]
    cases isPortableText s <;> cases (s' :: strings).all isPortableText <;> rfl

theorem length_le_quotedItems (strings : List String) :
    strings.length ≤ (quotedItems strings).length := by
  match strings with
  | [] => exact Nat.le_refl 0
  | [s] => simp [quotedItems, toList_quote]
  | s :: s' :: strings =>
    have hrest := length_le_quotedItems (s' :: strings)
    rw [quotedItems_cons_cons]
    simp only [List.length_append, List.length_cons] at hrest ⊢
    omega

theorem toList_quotes (strings : List String) :
    ("[" ++ ", ".intercalate (strings.map quote) ++ "]").toList =
      '[' :: (quotedItems strings ++ [']']) := by
  rw [String.toList_append, String.toList_append, String.toList_intercalate, List.map_map]
  rfl

theorem readsAs_quotes (strings : List String) :
    ReadsAs ("[" ++ ", ".intercalate (strings.map quote) ++ "]").toList
      (if strings.all isPortableText then some (.ofStrings strings) else none) where
  start := ⟨'[', _, toList_quotes strings, rfl⟩
  read {fuel} h rest := by
    rw [toList_quotes] at h ⊢
    obtain ⟨fuel, rfl⟩ := Nat.exists_eq_add_one_of_ne_zero (Nat.ne_zero_of_lt h)
    have hlength : strings.length < fuel := by
      have hle := length_le_quotedItems strings
      simp only [List.length_append, List.length_cons, List.length_nil] at h
      omega
    have hroom : depthLimit = 79 + 1 := rfl
    rw [hroom, List.cons_append, List.append_assoc, List.singleton_append, readValue,
      readItems_quotes strings hlength]
    cases strings.all isPortableText <;> rfl

theorem readEntry_append {key value : List Char} (hkey : IsKey key) {tree? : Option Tree}
    (hvalue : ReadsAs value tree?) {fuel : Nat} (h : value.length < fuel) (document : Document)
    (rest : List Char) :
    readEntry (fuel + 1) depthLimit false document
        (key ++ ' ' :: '=' :: ' ' :: (value ++ '\n' :: rest)) =
      tree?.bind fun tree => (document.put? [String.ofList key] tree).map (·, '\n' :: rest) := by
  have hspace : (' ' :: (value ++ '\n' :: rest)).dropWhile isSpace = value ++ '\n' :: rest := by
    obtain ⟨c, cs, rfl, hc⟩ := hvalue.start
    rw [List.dropWhile_cons_of_pos rfl, List.cons_append,
      List.dropWhile_cons_of_neg (by simp [hc])]
  rw [readEntry, readPath_append hkey rfl (List.dropWhile_cons_of_pos rfl) (by decide),
    Option.bind_eq_bind, Option.bind_some]
  dsimp only
  rw [dropAround?, if_neg (by decide), List.dropWhile_cons_of_neg (by decide)]
  change (readValue fuel depthLimit ((' ' :: (value ++ '\n' :: rest)).dropWhile isSpace)).bind _ = _
  rw [hspace, hvalue.read h]
  cases tree? with
  | none => rfl
  | some tree =>
    rw [Option.map_some, Option.bind_some, Option.bind_some]
    cases document.put? [String.ofList key] tree <;> rfl

def readLine (document : Document) (text : List Char) : Option (Document × List Char) :=
  match text with
  | '[' :: rest => readHeader document rest
  | _ => readEntry (3 * text.length + 3) depthLimit false document text

/-- What a line puts into the document stays there when the lines behind it are read. -/
theorem readLines_step {c : Char} {cs rest : List Char} (hc : isToken c = true)
    {document : Document} {document? : Option Document}
    (hline : readLine document (c :: cs) = document?.map (·, '\n' :: rest)) (fuel : Nat) :
    readLines (fuel + 1) document (c :: cs) =
      document?.bind fun document => readLines fuel document rest := by
  rw [readLines, dropGap?_token hc, Option.bind_eq_bind, Option.bind_some]
  unfold readLine at hline
  split at hline
  . next heq =>
    cases heq
    dsimp only
    split
    . next heq =>
      cases heq
      rw [hline]
      cases document? <;> rfl
    . next hne => exact (hne _ rfl).elim
  . next hne =>
    dsimp only
    split
    . next heq => exact (hne _ heq).elim
    . rw [hline]
      cases document? <;> rfl

def lineTexts (lines : List String) : List Char :=
  lines.flatMap fun line => line.toList ++ ['\n']

theorem lineTexts_cons (line : String) (lines : List String) :
    lineTexts (line :: lines) = line.toList ++ '\n' :: lineTexts lines := by
  rw [lineTexts, List.flatMap_cons, List.append_assoc]
  rfl

theorem length_le_lineTexts (lines : List String) : lines.length ≤ (lineTexts lines).length := by
  induction lines with
  | nil => exact Nat.le_refl 0
  | cons line lines ih =>
    rw [lineTexts_cons, List.length_append, List.length_cons, List.length_cons]
    omega

section

variable {key value : String} {document : Document} {lines : List String}

theorem readLines_entry (hkey : IsKey key.toList) {tree? : Option Tree}
    (hvalue : ReadsAs value.toList tree?) (fuel : Nat) :
    readLines (fuel + 1) document (lineTexts ((key ++ " = " ++ value) :: lines)) =
      tree?.bind fun tree => (document.put? [key] tree).bind fun document =>
        readLines fuel document (lineTexts lines) := by
  have htext : lineTexts ((key ++ " = " ++ value) :: lines) =
      key.toList ++ ' ' :: '=' :: ' ' :: (value.toList ++ '\n' :: lineTexts lines) := by
    rw [lineTexts_cons, String.toList_append, String.toList_append, List.append_assoc,
      List.append_assoc]
    rfl
  have hline : readLine document (lineTexts ((key ++ " = " ++ value) :: lines)) =
      (tree?.bind fun tree => document.put? [key] tree).map (·, '\n' :: lineTexts lines) := by
    rw [htext]
    unfold readLine
    split
    -- a line that starts with a key is no header of a table
    . next heq => exact (hkey.append_ne rfl _ _ heq).elim
    . rw [readEntry_append hkey hvalue, String.ofList_toList]
      . cases tree? <;> rfl
      . simp only [List.length_append, List.length_cons]
        omega
  obtain ⟨c, cs, hcons, hc⟩ := hkey.exists_cons
  rw [htext, hcons, List.cons_append] at hline ⊢
  rw [readLines_step (isToken_of_isKeyChar hc) hline]
  cases tree? <;> rfl

theorem readHeader_append (hkey : IsKey key.toList) (rest : List Char) :
    readHeader document (key.toList ++ ']' :: '\n' :: rest) =
      (document.header? [key] false).map (·, '\n' :: rest) := by
  unfold readHeader
  split
  . next heq => exact (hkey.append_ne rfl _ _ heq).elim
  . rw [readPath_append hkey rfl (List.dropWhile_cons_of_neg (by decide)) (by decide),
      Option.bind_eq_bind, Option.bind_some, String.ofList_toList]
    dsimp only
    cases document.header? [key] false <;> rfl

theorem readLines_header (hkey : IsKey key.toList) (fuel : Nat) :
    readLines (fuel + 1) document (lineTexts (("[" ++ key ++ "]") :: lines)) =
      (document.header? [key] false).bind fun document =>
        readLines fuel document (lineTexts lines) := by
  have htext : lineTexts (("[" ++ key ++ "]") :: lines) =
      '[' :: (key.toList ++ ']' :: '\n' :: lineTexts lines) := by
    rw [lineTexts_cons, String.toList_append, String.toList_append, List.append_assoc,
      List.append_assoc]
    rfl
  rw [htext]
  apply readLines_step rfl
  exact readHeader_append hkey (lineTexts lines)

theorem readLines_silent {silent : List String}
    (hsilent : ∀ line ∈ silent, isSilent line.toList = true) (fuel : Nat) :
    readLines fuel document (lineTexts (silent ++ lines)) =
      readLines fuel document (lineTexts lines) := by
  have hgap : dropGap? (lineTexts (silent ++ lines)) = dropGap? (lineTexts lines) := by
    induction silent with
    | nil => rfl
    | cons line silent ih =>
      rw [List.forall_mem_cons] at hsilent
      rw [List.cons_append, lineTexts_cons, dropGap?_silent hsilent.1, ih hsilent.2]
  cases fuel with
  | zero => rfl
  | succ fuel => rw [readLines, hgap, readLines]

end

end Facade.Toml
