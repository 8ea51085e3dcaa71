import ViewCompiler.Document.Json
import ViewCompiler.Document.Json.Reader
import ViewCompiler.Proofs.Document.Shape
import ViewCompiler.Proofs.Text.Digits
import ViewCompiler.Proofs.Text.Pieces

/-!
# Documents as JSON, read back

Reading undoes writing: the value at the front of a written document is the one that holds the
document (`Json.read_render`), and its readers give back what the document holds
(`Json.holds_ofDocument`). A value is read together with whatever follows it, as long as that cannot
be taken for a part of a number.

`Json.Value.ofDocument` is the value that a document should be read as: records become objects,
times and texts become strings, and what was never given is `null`. `ReadsBack` says of one document
that it is read as this value at any level of indentation and in front of anything that closes it
(`Closes`): a comma, a line break or the end. The proof is by induction on documents. Between the
items of a list and the fields of a record stand commas and line breaks, which the reader skips, so
lists and records have lemmas of their own (`readsBack_list`, `readsBack_record`).

The reader has fuel, one unit for each level and each item. A text that is written is longer than
all that it holds, and the reader starts with its length, so there is always enough.

Strings are escaped character by character, and an escape is read as the character that it was
written for (`stringBody_escapeChar`), whether it has a letter of its own or four digits.
-/

namespace ViewCompiler.Document.Json

open ViewCompiler.Text

/-! ### The value of a document -/

mutual

/-- The value that holds a document. -/
def Value.ofDocument : Document → Value
  | .absent => .null
  | .flag b => .flag b
  | .number n => .number (toString n)
  | .text s | .moment s => .string s
  | .list items => .array (valuesOf items)
  | .record fields => .object (fieldsOf fields)

/-- The values that hold several documents. -/
def valuesOf : List Document → List Value
  | [] => []
  | d :: ds => .ofDocument d :: valuesOf ds

/-- The fields that hold those of a record. -/
def fieldsOf : List (String × Document) → List (String × Value)
  | [] => []
  | (name, d) :: fs => (name, .ofDocument d) :: fieldsOf fs

end

/-! ### Strings -/

/-- Characters of an escape that was read already are passed over. -/
private theorem stringBody_skip {pre : List Char} {skip : Nat} (h : pre.length = skip)
    (out rest : List Char) : stringBody skip out (pre ++ rest) = stringBody 0 out rest := by
  induction pre generalizing skip with
  | nil =>
    obtain rfl : 0 = skip := h
    rfl
  | cons c pre ih =>
    obtain ⟨skip, rfl⟩ : ∃ n, skip = n + 1 := ⟨pre.length, h.symm⟩
    rw [List.cons_append, stringBody.eq_def]
    simp only [Nat.zero_lt_succ, gt_iff_lt, if_true]
    exact ih (Nat.succ.inj h)

private theorem hexUnit?_append {ds : List Char} (h : ds.length = 4) (rest : List Char) :
    hexUnit? (ds ++ rest) = hexUnit? ds := by
  unfold hexUnit?
  rw [List.take_append_of_le_length (Nat.le_of_eq h.symm), if_neg (by simp; omega),
    if_neg (by omega)]

/-- The numbers of the characters that are written by number. -/
def isNumbered (n : Nat) : Bool :=
  n < 0x20 || n = 0x2028 || n = 0x2029 || n = 0x3c || n = 0x3e || n = 0x26

/-- A code unit below the surrogates is read back from its four digits. -/
private theorem hexUnit?_hex {n : Nat} (h : isNumbered n = true) :
    (hex 4 n).toList.length = 4 ∧ hexUnit? (hex 4 n).toList = some n ∧ n < 0xd800 := by
  have hsmall : ∀ m < 0x20, (hex 4 m).toList.length = 4 ∧ hexUnit? (hex 4 m).toList = some m ∧
      m < 0xd800 := by decide
  simp only [isNumbered, Bool.or_eq_true, decide_eq_true_eq] at h
  rcases h with ((((h | rfl) | rfl) | rfl) | rfl) | rfl
  · exact hsmall n h
  all_goals decide

/-- A character that is written by its number is read as one character. -/
private theorem stringBody_hex {c : Char} (h : isNumbered c.toNat = true) (out rest : List Char) :
    stringBody 0 out ('\\' :: 'u' :: (hex 4 c.toNat).toList ++ rest) =
      stringBody 0 (c :: out) rest := by
  -- The character lies below the surrogates, so that it is not taken for half of a pair.
  obtain ⟨hlength, hunit, hlt⟩ := hexUnit?_hex h
  have hread := (hexUnit?_append hlength rest).trans hunit
  simp only [List.cons_append, stringBody, hread]
  rw [if_neg (by decide), if_neg (by decide), if_neg (by decide), if_neg (by decide),
    if_pos (by simp [hlt]), Char.ofNat_toNat, if_pos (by decide)]
  exact stringBody_skip hlength (c :: out) rest

/-- A character is read back from its written form inside a string. -/
theorem stringBody_escapeChar (c : Char) (out rest : List Char) :
    stringBody 0 out (escapeChar true c ++ rest) = stringBody 0 (c :: out) rest := by
  have hchar : ∀ {n : Nat}, c.toNat = n → Char.ofNat n = c := by
    rintro n rfl
    exact Char.ofNat_toNat c
  unfold escapeChar
  split
  case h_6 hquote hbackslash _ _ _ =>
    simp only [Bool.true_and, decide_eq_true_eq]
    split
    · rename_i h
      rw [← hchar h]
      rfl
    · split
      · rename_i h
        rw [← hchar h]
        rfl
      · split
        · rename_i h
          refine stringBody_hex ?_ out rest
          simp only [isNumbered, Bool.or_eq_true, decide_eq_true_eq] at h ⊢
          rcases h with h | (rfl | rfl) | rfl
          · exact .inl (.inl (.inl h))
          all_goals decide
        · rename_i h
          simp only [Bool.or_eq_true, decide_eq_true_eq, not_or] at h
          have hc : ∀ d : Char, c.toNat ≠ d.toNat → c ≠ d := fun d hne heq => hne (heq ▸ rfl)
          rw [List.cons_append, List.nil_append, stringBody.eq_def]
          simp only [gt_iff_lt, Nat.lt_irrefl, if_false, hc '"' hquote, h.1.1.1, hc '\\' hbackslash,
            ne_eq, not_false_eq_true, if_true]
  -- Each of the others has a short form.
  all_goals
    rename_i h
    rw [← hchar h]
    rfl

/-- A string is read back behind its opening quote. -/
private theorem stringBody_string (cs out rest : List Char) :
    stringBody 0 out (cs.flatMap (escapeChar true) ++ '"' :: rest) =
      some (String.ofList (out.reverse ++ cs), rest) := by
  induction cs generalizing out with
  | nil =>
    rw [List.append_nil]
    rfl
  | cons c cs ih =>
    rw [List.flatMap_cons, List.append_assoc, stringBody_escapeChar, ih, List.reverse_cons,
      List.append_assoc]
    rfl

/-- A string is written as its escaped characters between quotation marks. -/
theorem toList_string (s : String) :
    (string true s).toList = '"' :: (s.toList.flatMap (escapeChar true) ++ ['"']) := by
  simp only [string, String.toList_append, String.toList_ofList]
  rfl

/-- A written string is read back behind its opening quote. -/
theorem stringBody_toList_string (s : String) (rest : List Char) :
    ∃ cs, (string true s).toList ++ rest = '"' :: cs ∧ stringBody 0 [] cs = some (s, rest) := by
  refine ⟨s.toList.flatMap (escapeChar true) ++ '"' :: rest, ?_, ?_⟩
  · rw [toList_string, List.cons_append, List.append_assoc]
    rfl
  · rw [stringBody_string, List.reverse_nil, List.nil_append, String.ofList_toList]

/-! ### Numbers -/

/-- What may follow a value: nothing that could be taken for a part of a number. -/
def Closes (rest : List Char) : Prop := ∀ c ∈ rest.head?, c = ',' ∨ c = '\n'

/-- No digit follows where a value is closed. -/
theorem Closes.isDigit {rest : List Char} (h : Closes rest) :
    ∀ c ∈ rest.head?, c.isDigit = false := by
  intro c hc
  rcases h c hc with rfl | rfl
  · rfl
  · rfl

/-- The digits of a number are read as one run where a value is closed. -/
private theorem digitRun?_digits (n : Nat) {rest : List Char} (h : Closes rest) :
    digitRun? (digits n ++ rest) = some (digits n, rest) := by
  have hdigits : ∀ c ∈ digits n, c.isDigit = true := fun c hc => isDigit_of_mem_digits hc
  unfold digitRun?
  rw [takeWhile_append hdigits h.isDigit, dropWhile_append hdigits h.isDigit, if_neg]
  rw [List.isEmpty_iff]
  exact digits_ne_nil n

/-- A value is closed by the end, a comma or a line break. -/
theorem Closes.eq_nil_or_cons {rest : List Char} (h : Closes rest) :
    rest = [] ∨ ∃ c cs, rest = c :: cs ∧ (c = ',' ∨ c = '\n') := by
  cases rest with
  | nil => exact .inl rfl
  | cons c cs => exact .inr ⟨c, cs, rfl, h c rfl⟩

/-- The digits of a number are read back, with and without a sign. -/
private theorem number?_digits (n : Nat) {rest : List Char} (h : Closes rest) :
    number? (digits n ++ rest) = some (String.ofList (digits n), rest) ∧
      number? ('-' :: (digits n ++ rest)) = some (String.ofList ('-' :: digits n), rest) := by
  have hrun := digitRun?_digits n h
  by_cases hn : n = 0
  · subst hn
    rw [digits_zero]
    rcases h.eq_nil_or_cons with rfl | ⟨c, cs, rfl, rfl | rfl⟩
    · exact ⟨rfl, rfl⟩
    · exact ⟨rfl, rfl⟩
    · exact ⟨rfl, rfl⟩
  · -- A zero in front would end the number, and a sign would be taken off.
    obtain ⟨d, ds, hds, hdigit, hzero⟩ := exists_digits_eq_cons n
    have hminus : d ≠ '-' := ne_of_class hdigit rfl
    rw [hds, List.cons_append] at hrun ⊢
    unfold number?
    simp only [List.cons.injEq, hminus, false_and, imp_self, implies_true, hzero hn, hrun]
    rcases h.eq_nil_or_cons with rfl | ⟨c, cs, rfl, rfl | rfl⟩
    all_goals simp

/-- An integer is read back as it was written. -/
private theorem number?_toString (n : Int) {rest : List Char} (h : Closes rest) :
    number? ((toString n).toList ++ rest) = some (toString n, rest) := by
  obtain ⟨hplain, hsigned⟩ := number?_digits n.natAbs h
  have hofList : toString n = String.ofList (toString n).toList := String.ofList_toList.symm
  rw [hofList, String.toList_ofList, toList_toString]
  split
  · exact hsigned
  · exact hplain

/-! ### Values -/

private theorem isSpace_of_isNumeral {c : Char} (hc : isNumeral c = true) : isSpace c = false := by
  unfold isSpace
  rw [decide_eq_false (ne_of_class (d := ' ') hc rfl),
    decide_eq_false (ne_of_class (d := '\t') hc rfl),
    decide_eq_false (ne_of_class (d := '\n') hc rfl),
    decide_eq_false (ne_of_class (d := '\r') hc rfl)]
  rfl

/-- What starts with a sign or a digit is read as a number. -/
private theorem value?_number {c : Char} {cs : List Char} (hc : isNumeral c = true) (fuel : Nat) :
    value? (c :: cs) (fuel + 1) = (number? (c :: cs)).map fun (n, cs) => (.number n, cs) := by
  -- No value of another kind starts with such a character.
  have hspace := isSpace_of_isNumeral hc
  have hbrace : c.toNat ≠ 0x7b := by
    intro heq
    refine ne_of_class (d := Char.ofNat 0x7b) hc rfl ?_
    rw [← heq, Char.ofNat_toNat]
  have hword : ∀ (w : Char) (ws : List Char), w ≠ c → dropPrefix? (w :: ws) (c :: cs) = none :=
    fun w ws hw => by rw [dropPrefix?, if_neg hw]
  rw [value?, List.dropWhile_cons_of_neg (by simp [hspace])]
  simp only [ne_of_class (d := '"') hc rfl, ne_of_class (d := '[') hc rfl, imp_self,
    hbrace, if_false]
  have hnull : dropPrefix? "null".toList (c :: cs) = none :=
    hword 'n' _ (ne_of_class hc rfl).symm
  have htrue : dropPrefix? "true".toList (c :: cs) = none :=
    hword 't' _ (ne_of_class hc rfl).symm
  have hfalse : dropPrefix? "false".toList (c :: cs) = none :=
    hword 'f' _ (ne_of_class hc rfl).symm
  rw [hnull, htrue, hfalse]

/-- A string is read back from its written form. -/
theorem value?_string (s : String) (rest : List Char) (fuel : Nat) :
    value? ((string true s).toList ++ rest) (fuel + 1) = some (.string s, rest) := by
  obtain ⟨cs, hcs, hs⟩ := stringBody_toList_string s rest
  rw [hcs, value?, List.dropWhile_cons_of_neg (by decide)]
  simp only [hs]
  rfl

/-- A value is read in the same way behind white space. -/
theorem value?_append_space {ws : List Char} (h : ∀ c ∈ ws, isSpace c = true) (cs : List Char)
    (fuel : Nat) : value? (ws ++ cs) fuel = value? cs fuel := by
  cases fuel with
  | zero => rfl
  | succ fuel => rw [value?, value?, List.dropWhile_append_of_pos h]

/-- The items of an array are read in the same way behind white space. -/
private theorem items?_append_space {ws : List Char} (h : ∀ c ∈ ws, isSpace c = true)
    (cs : List Char) (fuel : Nat) : items? (ws ++ cs) fuel = items? cs fuel := by
  cases fuel with
  | zero => rfl
  | succ fuel => rw [items?, items?, value?_append_space h]

/-- The fields of an object are read in the same way behind white space. -/
private theorem fields?_append_space {ws : List Char} (h : ∀ c ∈ ws, isSpace c = true)
    (cs : List Char) (fuel : Nat) : fields? (ws ++ cs) fuel = fields? cs fuel := by
  cases fuel with
  | zero => rfl
  | succ fuel => rw [fields?, fields?, List.dropWhile_append_of_pos h]

/-! ### Written documents -/

private theorem isSpace_newline (level : Nat) : ∀ c ∈ (newline level).toList, isSpace c = true := by
  intro c hc
  simp only [newline, String.toList_append, String.toList_ofList, List.mem_append,
    List.mem_replicate] at hc
  rcases hc with hc | ⟨-, rfl⟩
  · obtain rfl := List.mem_singleton.1 hc
    rfl
  · rfl

private theorem dropWhile_newline (level : Nat) {c : Char} (hc : isSpace c = false)
    (cs : List Char) :
    ((newline level).toList ++ c :: cs).dropWhile isSpace = c :: cs := by
  rw [List.dropWhile_append_of_pos (isSpace_newline level),
    List.dropWhile_cons_of_neg (by rw [hc]; decide)]

/-- A new line closes a value. -/
theorem closes_newline (level : Nat) (cs : List Char) : Closes ((newline level).toList ++ cs) := by
  intro c hc
  rw [newline, String.toList_append] at hc
  exact .inr (Option.some.inj hc).symm

/-- An array that opens on a new line is read from its first item on. -/
private theorem value?_array {c : Char} (hspace : isSpace c = false) (hbracket : c ≠ ']')
    (level : Nat)
    (cs : List Char) (fuel : Nat) : value? ('[' :: ((newline level).toList ++ c :: cs)) (fuel + 1) =
      (items? (c :: cs) fuel).map fun (vs, cs) => (.array vs, cs) := by
  rw [value?, List.dropWhile_cons_of_neg (by decide)]
  simp only [dropWhile_newline level hspace]
  split
  · rename_i heq
    exact (hbracket (List.cons.inj heq).1).elim
  · rfl

/-- An object that opens on a new line is read from its first field on. -/
private theorem value?_object {c : Char} (hspace : isSpace c = false) (hbrace : c.toNat ≠ 0x7d)
    (level : Nat)
    (cs : List Char) (fuel : Nat) :
    value? (Char.ofNat 0x7b :: ((newline level).toList ++ c :: cs)) (fuel + 1) =
      (fields? (c :: cs) fuel).map fun (fs, cs) => (.object fs, cs) := by
  rw [value?, List.dropWhile_cons_of_neg (by decide)]
  split
  case h_3 heq =>
    obtain ⟨rfl, rfl⟩ := List.cons.inj heq
    simp only [dropWhile_newline level hspace, if_neg hbrace]
    rfl
  all_goals
    rename_i heq
    cases heq

private theorem toList_write_list (level : Nat) (item : Document) (items : List Document) :
    (write level (.list (item :: items))).toList = '[' :: ((newline (level + 1)).toList ++
      ((write (level + 1) item).toList ++ ((writeItems (level + 1) items).toList ++
        ((newline level).toList ++ [']'])))) := by
  simp only [write, String.toList_append, List.append_assoc]
  rfl

private theorem toList_writeItems (level : Nat) (item : Document) (items : List Document) :
    (writeItems level (item :: items)).toList = ',' :: ((newline level).toList ++
      ((write level item).toList ++ (writeItems level items).toList)) := by
  simp only [writeItems, String.toList_append, List.append_assoc]
  rfl

private theorem toList_write_record (level : Nat) (name : String) (value : Document)
    (fields : List (String × Document)) :
    (write level (.record ((name, value) :: fields))).toList =
      Char.ofNat 0x7b :: ((newline (level + 1)).toList ++ ((string true name).toList ++
        (':' :: ' ' :: ((write (level + 1) value).toList ++
          ((writeFields (level + 1) fields).toList ++
          ((newline level).toList ++ [Char.ofNat 0x7d])))))) := by
  simp only [write, String.toList_append, List.append_assoc]
  rfl

private theorem toList_writeFields (level : Nat) (name : String) (value : Document)
    (fields : List (String × Document)) :
    (writeFields level ((name, value) :: fields)).toList =
      ',' :: ((newline level).toList ++ ((string true name).toList ++
        (':' :: ' ' :: ((write level value).toList ++ (writeFields level fields).toList)))) := by
  simp only [writeFields, String.toList_append, List.append_assoc]
  rfl

/-- What follows an item closes it. -/
private theorem closes_writeItems (level : Nat) (items : List Document) {cs : List Char}
    (h : Closes cs) :
    Closes ((writeItems level items).toList ++ cs) := by
  cases items with
  | nil => exact h
  | cons item items =>
    rw [toList_writeItems]
    exact fun c hc => .inl (Option.some.inj hc).symm

/-- What follows a field closes it. -/
private theorem closes_writeFields (level : Nat) (fields : List (String × Document))
    {cs : List Char} (h : Closes cs) : Closes ((writeFields level fields).toList ++ cs) := by
  cases fields with
  | nil => exact h
  | cons f fields =>
    obtain ⟨name, value⟩ := f
    rw [toList_writeFields]
    exact fun c hc => .inl (Option.some.inj hc).symm

/-- A written document does not start like the end of a list. -/
theorem exists_toList_write (level : Nat) (d : Document) :
    ∃ c cs, (write level d).toList = c :: cs ∧ isSpace c = false ∧ c ≠ ']' := by
  cases d with
  | absent => exact ⟨'n', "ull".toList, by rw [write]; rfl, rfl, by decide⟩
  | flag b =>
    cases b with
    | true => exact ⟨'t', "rue".toList, by rw [write]; rfl, rfl, by decide⟩
    | false => exact ⟨'f', "alse".toList, by rw [write]; rfl, rfl, by decide⟩
  | number n =>
    obtain ⟨c, cs, hcs, hc, -⟩ := exists_toList_toString n
    exact ⟨c, cs, by rw [write]; exact hcs, isSpace_of_isNumeral hc, ne_of_class hc rfl⟩
  | text s => exact ⟨'"', _, by rw [write]; exact toList_string s, rfl, by decide⟩
  | moment s => exact ⟨'"', _, by rw [write]; exact toList_string s, rfl, by decide⟩
  | list items =>
    cases items with
    | nil => exact ⟨'[', [']'], by rw [write]; rfl, rfl, by decide⟩
    | cons item items => exact ⟨'[', _, toList_write_list level item items, rfl, by decide⟩
  | record fields =>
    cases fields with
    | nil => exact ⟨Char.ofNat 0x7b, [Char.ofNat 0x7d], by rw [write]; rfl, rfl, by decide⟩
    | cons f fields =>
      obtain ⟨name, value⟩ := f
      exact ⟨_, _, toList_write_record level name value fields, rfl, by decide⟩

/-! ### Reading back -/

/-- The document is read back, whatever follows it. -/
def ReadsBack (d : Document) : Prop :=
  ∀ level rest fuel, Closes rest → (write level d).toList.length ≤ fuel →
    value? ((write level d).toList ++ rest) fuel = some (.ofDocument d, rest)

/-- The items of a list are read back up to its end. -/
private theorem items?_write {item : Document} {items : List Document} (hitem : ReadsBack item)
    (hitems : ∀ d ∈ items, ReadsBack d) (level closing : Nat) (rest : List Char) (fuel : Nat)
    (hfuel : (write level item).toList.length + (writeItems level items).toList.length < fuel) :
    items? ((write level item).toList ++ ((writeItems level items).toList ++
      ((newline closing).toList ++ ']' :: rest))) fuel =
      some (.ofDocument item :: valuesOf items, rest) := by
  -- Every further item is written behind a comma, which pays for the step in which it is read.
  induction items generalizing item fuel with
  | nil =>
    obtain ⟨fuel, rfl⟩ : ∃ n, fuel = n + 1 := ⟨fuel - 1, by omega⟩
    have hvalue := hitem level _ fuel (closes_newline closing (']' :: rest)) (by omega)
    rw [writeItems, String.toList_empty, List.nil_append, items?, hvalue]
    simp only [Option.bind_eq_bind, Option.bind_some, dropWhile_newline (c := ']') closing rfl]
    rfl
  | cons next items ih =>
    obtain ⟨fuel, rfl⟩ : ∃ n, fuel = n + 1 := ⟨fuel - 1, by omega⟩
    obtain ⟨hnext, hitems⟩ := List.forall_mem_cons.1 hitems
    have hcloses := closes_writeItems level (next :: items) (closes_newline closing (']' :: rest))
    have hvalue := hitem level _ fuel hcloses (by omega)
    rw [toList_writeItems] at hfuel hvalue ⊢
    simp only [List.length_cons, List.length_append] at hfuel
    rw [items?, hvalue]
    simp only [List.cons_append, List.append_assoc, Option.bind_eq_bind, Option.bind_some]
    rw [List.dropWhile_cons_of_neg (by decide)]
    simp only [items?_append_space (isSpace_newline level), ih hnext hitems fuel (by omega)]
    rfl

/-- A field is read by its name and its value, if what follows the value tells that it ends
there. -/
theorem fields?_field (name : String) {value : Document} (hvalue : ReadsBack value) (level : Nat)
    {rest : List Char} (hrest : Closes rest) {fuel : Nat}
    (hfuel : (write level value).toList.length ≤ fuel) :
    fields? ((string true name).toList ++ (':' :: ' ' :: ((write level value).toList ++ rest)))
      (fuel + 1) =
      match rest.dropWhile isSpace with
      | ',' :: cs => (fields? cs fuel).bind fun (fs, cs) =>
        some ((name, .ofDocument value) :: fs, cs)
      | c :: cs => if c.toNat = 0x7d then some ([(name, .ofDocument value)], cs) else none
      | [] => none := by
  obtain ⟨cs, hcs, hname⟩ :=
    stringBody_toList_string name (':' :: ' ' :: ((write level value).toList ++ rest))
  have hread : value? (' ' :: ((write level value).toList ++ rest)) fuel =
      some (.ofDocument value, rest) := by
    have hblank : ∀ c ∈ [' '], isSpace c = true := List.forall_mem_singleton.2 rfl
    rw [← hvalue level rest fuel hrest hfuel]
    exact value?_append_space hblank _ fuel
  rw [hcs, fields?, List.dropWhile_cons_of_neg (by decide)]
  simp only [hname, Option.bind_eq_bind, Option.bind_some]
  rw [List.dropWhile_cons_of_neg (by decide)]
  simp only [hread, Option.bind_some]
  rfl

/-- The fields of a record are read back up to its end. -/
private theorem fields?_write (name : String) {value : Document} {fields : List (String × Document)}
    (hvalue : ReadsBack value) (hfields : ∀ f ∈ fields, ReadsBack f.2) (level closing : Nat)
    (rest : List Char) (fuel : Nat)
    (hfuel : (write level value).toList.length + (writeFields level fields).toList.length < fuel) :
    fields? ((string true name).toList ++ (':' :: ' ' :: ((write level value).toList ++
      ((writeFields level fields).toList ++
        ((newline closing).toList ++ Char.ofNat 0x7d :: rest))))) fuel =
      some ((name, .ofDocument value) :: fieldsOf fields, rest) := by
  have hend := closes_newline closing (Char.ofNat 0x7d :: rest)
  induction fields generalizing name value fuel with
  | nil =>
    obtain ⟨fuel, rfl⟩ : ∃ n, fuel = n + 1 := ⟨fuel - 1, by omega⟩
    rw [writeFields, String.toList_empty, List.nil_append,
      fields?_field name hvalue level hend (by omega), dropWhile_newline closing rfl]
    rfl
  | cons f fields ih =>
    obtain ⟨next, d⟩ := f
    obtain ⟨fuel, rfl⟩ : ∃ n, fuel = n + 1 := ⟨fuel - 1, by omega⟩
    obtain ⟨hnext, hfields⟩ := List.forall_mem_cons.1 hfields
    change ReadsBack d at hnext
    rw [fields?_field name hvalue level (closes_writeFields level _ hend) (by omega)]
    rw [toList_writeFields] at hfuel ⊢
    simp only [List.length_cons, List.length_append] at hfuel
    simp only [List.cons_append, List.append_assoc]
    rw [List.dropWhile_cons_of_neg (by decide)]
    simp only [fields?_append_space (isSpace_newline level),
      ih next hnext hfields fuel (by omega)]
    rfl

/-- A document is not empty, so that some fuel is always left. -/
theorem readsBack_of_succ {d : Document}
    (h : ∀ level rest fuel, Closes rest → (write level d).toList.length ≤ fuel + 1 →
      value? ((write level d).toList ++ rest) (fuel + 1) = some (.ofDocument d, rest)) :
    ReadsBack d := by
  intro level rest fuel hrest hfuel
  obtain ⟨c, cs, hcs, -⟩ := exists_toList_write level d
  cases fuel with
  | zero =>
    rw [hcs] at hfuel
    cases hfuel
  | succ fuel => exact h level rest fuel hrest hfuel

/-- A list is read back if its items are. -/
theorem readsBack_list {item : Document} {items : List Document} (hitem : ReadsBack item)
    (hitems : ∀ d ∈ items, ReadsBack d) : ReadsBack (.list (item :: items)) := by
  refine readsBack_of_succ fun level rest fuel _ hfuel => ?_
  rw [toList_write_list] at hfuel ⊢
  simp only [List.length_cons, List.length_append] at hfuel
  -- The first item keeps the list from being taken for an empty one.
  obtain ⟨c, cs, hcs, hspace, hbracket⟩ := exists_toList_write (level + 1) item
  have hread := items?_write hitem hitems (level + 1) level rest fuel (by omega)
  simp only [List.cons_append, List.append_assoc, List.nil_append]
  rw [hcs, List.cons_append] at hread ⊢
  rw [value?_array hspace hbracket, hread]
  rfl

/-- A record is read back if the values of its fields are. -/
theorem readsBack_record {name : String} {value : Document} {fields : List (String × Document)}
    (hvalue : ReadsBack value) (hfields : ∀ f ∈ fields, ReadsBack f.2) :
    ReadsBack (.record ((name, value) :: fields)) := by
  refine readsBack_of_succ fun level rest fuel _ hfuel => ?_
  rw [toList_write_record] at hfuel ⊢
  simp only [List.length_cons, List.length_append] at hfuel
  have hread := fields?_write name hvalue hfields (level + 1) level rest fuel (by omega)
  simp only [List.cons_append, List.append_assoc, List.nil_append]
  rw [toList_string, List.cons_append] at hread ⊢
  rw [value?_object rfl (by decide), hread]
  rfl

/-- Every document is read back, whatever follows it. -/
private theorem readsBack (d : Document) : ReadsBack d := by
  induction d using Document.induction with
  | absent =>
    refine readsBack_of_succ fun level rest fuel _ _ => ?_
    rw [write]
    rfl
  | flag b =>
    refine readsBack_of_succ fun level rest fuel _ _ => ?_
    cases b with
    | true =>
      rw [write]
      rfl
    | false =>
      rw [write]
      rfl
  | number n =>
    refine readsBack_of_succ fun level rest fuel hrest _ => ?_
    -- The first character of a number tells the reader that it is one.
    have hnumber := number?_toString n hrest
    obtain ⟨c, cs, hcs, hc, -⟩ := exists_toList_toString n
    rw [write]
    rw [hcs, List.cons_append] at hnumber ⊢
    rw [value?_number hc, hnumber]
    rfl
  | text s =>
    refine readsBack_of_succ fun level rest fuel _ _ => ?_
    rw [write]
    exact value?_string s rest fuel
  | moment s =>
    refine readsBack_of_succ fun level rest fuel _ _ => ?_
    rw [write]
    exact value?_string s rest fuel
  | list items ih =>
    cases items with
    | nil =>
      refine readsBack_of_succ fun level rest fuel _ _ => ?_
      rw [write]
      rfl
    | cons item items =>
      obtain ⟨hitem, hitems⟩ := List.forall_mem_cons.1 ih
      exact readsBack_list hitem hitems
  | record fields ih =>
    cases fields with
    | nil =>
      refine readsBack_of_succ fun level rest fuel _ _ => ?_
      rw [write]
      rfl
    | cons f fields =>
      obtain ⟨hvalue, hfields⟩ := List.forall_mem_cons.1 ih
      exact readsBack_record hvalue hfields

theorem two_le_length_render (d : Document) : 2 ≤ (render d).length := by
  obtain ⟨c, cs, hcs, -⟩ := exists_toList_write 0 d
  have hlength : (render d).length = (write 0 d).length + 1 := String.length_append _ _
  rw [hlength, ← String.length_toList, hcs, List.length_cons]
  omega

/-- Reading undoes writing. -/
theorem read_render (d : Document) : read (render d) = .ok (.ofDocument d) := by
  obtain ⟨c, cs, hcs, hspace, -⟩ := exists_toList_write 0 d
  -- The line break at the end is not looked at.
  have hread := readsBack d 0 ['\n'] (2 * ((write 0 d).toList ++ ['\n']).length + 2)
    (closes_newline 0 []) (by rw [List.length_append]; omega)
  have hrender : (render d).toList = (write 0 d).toList ++ ['\n'] := String.toList_append
  have hall : ((write 0 d).toList ++ ['\n']).all isSpace = false := by
    rw [hcs, List.cons_append, List.all_cons, hspace, Bool.false_and]
  simp only [read, hrender, hall, hread]
  rfl

/-! ### Shapes -/

private theorem valuesOf_eq_map (items : List Document) :
    valuesOf items = items.map .ofDocument := by
  induction items with
  | nil => rfl
  | cons d ds ih => rw [valuesOf, ih, List.map_cons]

private theorem fieldsOf_eq_map (fields : List (String × Document)) :
    fieldsOf fields = fields.map fun f => (f.1, .ofDocument f.2) := by
  induction fields with
  | nil => rfl
  | cons f fs ih =>
    obtain ⟨name, d⟩ := f
    rw [fieldsOf, ih, List.map_cons]

/-- A whole number is read back from its digits, whatever range it has to fit into. -/
theorem bind_readNat?_digits {fits : Int → Bool} (negative : Bool) {k : Nat} {n : Int}
    (hn : (if negative then -(k : Int) else k) = n) (h : fits n = true) :
    ((readNat? (digits k)).bind fun m =>
      let m : Int := if negative then -(m : Int) else m
      if fits m then some m else none) = some n := by
  subst hn
  rw [readNat?_digits]
  exact if_pos h

/-- An integer of 64 bits is read back from its text. -/
private theorem integerOf?_toString {n : Int} (h : Word.fits n = true) :
    integerOf? (toString n) = some n := by
  unfold integerOf?
  rw [toList_toString]
  by_cases hneg : n < 0
  · rw [if_pos hneg]
    exact bind_readNat?_digits true (by rw [if_pos rfl]; omega) h
  · rw [if_neg hneg, List.nil_append]
    split
    rename_i negative ds hsplit
    split at hsplit
    · rename_i hminus
      have hdigit : Char.isDigit '-' = true := isDigit_of_mem_digits (hminus ▸ List.mem_cons_self)
      cases hdigit
    · obtain ⟨rfl, rfl⟩ := Prod.mk.inj hsplit
      exact bind_readNat?_digits false (by rw [if_neg Bool.false_ne_true]; omega) h

/-- A known name is recognised as itself. -/
private theorem knownName?_of_mem {known : List String} {name : String} (h : name ∈ known) :
    knownName? known name = some name := by
  have hsome : (known.find? (· = name)).isSome := List.find?_isSome.2 ⟨name, h, decide_eq_true rfl⟩
  obtain ⟨k, hk⟩ := Option.isSome_iff_exists.1 hsome
  obtain rfl : k = name := by simpa using List.find?_some hk
  rw [knownName?, hk, Option.some_or]

/-- Fields with known names keep their names. -/
private theorem mapM_knownName? {known : List String} {fields : List (String × Value)}
    (h : ∀ f ∈ fields, f.1 ∈ known) :
    (fields.mapM fun (n, v) =>
      match knownName? known n with
      | some k => Except.ok (k, v)
      | none => .error ReadError.mismatch) = .ok fields := by
  induction fields with
  | nil => rfl
  | cons f fs ih =>
    obtain ⟨hf, hfs⟩ := List.forall_mem_cons.1 h
    refine mapM_cons_eq_ok_iff.2 ⟨f, fs, ?_, ih hfs, rfl⟩
    simp only [knownName?_of_mem hf]

/-- The readers of values give back what a document holds. -/
theorem holds_ofDocument : Holds Value.ofDocument where
  string? s := rfl
  integer? n hn := by
    simp only [Value.ofDocument, Readable.integer?, integerOf?_toString hn]
  flag? b := rfl
  items? items := by
    rw [← valuesOf_eq_map]
    rfl
  fields? known fields hknown _ hnodup := by
    refine ⟨(fields.map fun f => (f.1, .ofDocument f.2)).reverse, ?_, fun name => ?_⟩
    · rw [Value.ofDocument, fieldsOf_eq_map]
      refine bind_eq_ok_iff.2 ⟨_, mapM_knownName? ?_, rfl⟩
      rw [List.forall_mem_map]
      exact hknown
    · rw [lookup_reverse, lookup_map_snd]
      rw [List.map_map]
      exact hnodup

end ViewCompiler.Document.Json
