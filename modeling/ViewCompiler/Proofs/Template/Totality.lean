import Mathlib.Data.List.TakeWhile
import ViewCompiler.Proofs.Template.Place

/-!
# What reading a template comes to

Every reader goes forward, so reading always ends. It ends with a forest or with a fault whose line
and column are those of its bytes (`Position.IsAt`), in every template but those in which the reader
leaves the text (`parse_total_iff`). This happens in a raw text element only, and only where some
character takes more bytes in lower case than it has (`exists_longer_of_overruns`).

A position has an offset in bytes, a line and a column. Its line is one more than there are newlines
in the bytes before the offset, and its column counts the bytes from the last of them. The reader
does not count: it keeps the offsets at which lines start and looks for the last one that is not
behind an offset. That the two come to the same is an induction along the characters, in which only
a line feed has the byte of a line feed (`newline_mem_utf8EncodeChar_iff`).

A template in which the reader leaves the text has a raw text element whose closing tag stands
further back in the lower case form than the template is long (`Overruns`). What stands before it
can be read and put together, or there would be a fault instead, which is found first. That
characters keep their length in lower case is enough for this not to happen, and most do.

The style sheet of the last example has two characters that grow from two bytes to three.
-/

namespace ViewCompiler.Template

open ViewCompiler.Text

/-! ### Bytes, lines and columns -/

/-- The bytes of a text. -/
def bytes (source : String) : List UInt8 := source.toUTF8.data.toList

/-- The byte of a newline. -/
def newline : UInt8 := 10

/-- The offset at which the line of an offset starts: behind the last newline before it, if there is
any. -/
def lineStart (bs : List UInt8) (offset : Nat) : Nat :=
  ((bs.take offset).reverse.dropWhile (· ≠ newline)).length

/-- The line and the column of a position are those of the byte at its offset. -/
structure Position.IsAt (source : String) (p : Position) : Prop where
  line : p.line = 1 + ((bytes source).take p.offset).count newline
  column : p.column = p.offset - lineStart (bytes source) p.offset + 1

/-- The bytes of a text are those of its characters. -/
theorem bytes_eq (source : String) :
    bytes source = source.toList.flatMap String.utf8EncodeChar := by
  rw [bytes, String.toUTF8, ← String.utf8Encode_toList, List.utf8Encode]
  simp

theorem utf8ByteSize_eq (source : String) : source.utf8ByteSize = byteLength source.toList := by
  rw [← utf8ByteSize_ofList, String.ofList_toList]

private theorem newline_eq_ofNat_iff {n : Nat} : newline = UInt8.ofNat n ↔ n % 256 = 10 := by
  rw [← UInt8.toNat_inj, UInt8.toNat_ofNat']
  exact eq_comm

/-- Only a line feed has the byte of a line feed. -/
theorem newline_mem_utf8EncodeChar_iff {c : Char} :
    newline ∈ String.utf8EncodeChar c ↔ c = '\n' := by
  have hchar : c = '\n' ↔ c.val.toNat = 10 := by
    rw [← Char.val_inj, ← UInt32.toNat_inj]
    rfl
  rw [hchar]
  unfold String.utf8EncodeChar
  generalize c.val.toNat = v
  simp only [apply_ite (newline ∈ ·), List.mem_cons, List.not_mem_nil, or_false,
    newline_eq_ofNat_iff]
  split
  · rw [Nat.mod_eq_of_lt (by omega)]
  · split
    · exact iff_of_false (by omega) (by omega)
    · split
      · exact iff_of_false (by omega) (by omega)
      · exact iff_of_false (by omega) (by omega)

/-- How many bytes stand up to the last newline. -/
def upToNewline (bs : List UInt8) : Nat := (bs.reverse.dropWhile (· ≠ newline)).length

private theorem dropWhile_reverse_eq_nil_iff {bs : List UInt8} :
    bs.reverse.dropWhile (· ≠ newline) = [] ↔ newline ∉ bs := by
  rw [List.dropWhile_eq_nil_iff]
  constructor
  · intro h hmem
    simpa using h newline (List.mem_reverse.2 hmem)
  · intro h b hb
    have hne : b ≠ newline := fun heq => h (heq ▸ List.mem_reverse.1 hb)
    simpa using hne

private theorem upToNewline_of_notMem {bs : List UInt8} (h : newline ∉ bs) :
    upToNewline bs = 0 := by
  rw [upToNewline, dropWhile_reverse_eq_nil_iff.2 h, List.length_nil]

/-- The column counts from the last line feed on. -/
theorem upToNewline_append (bs bs' : List UInt8) :
    upToNewline (bs ++ bs') =
      if newline ∈ bs' then bs.length + upToNewline bs' else upToNewline bs := by
  simp only [upToNewline, List.reverse_append, List.dropWhile_append, List.isEmpty_iff,
    dropWhile_reverse_eq_nil_iff]
  by_cases h : newline ∈ bs'
  · rw [if_pos h, if_neg (not_not.2 h), List.length_append, List.length_reverse, Nat.add_comm]
  · rw [if_neg h, if_pos h]

/-- The lines that start behind `base` are those after the newlines of the bytes there. -/
structure LinesStart (base : Nat) (starts : List Nat) (bs : List UInt8) : Prop where
  length : starts.length = bs.count newline
  last : starts.getLast?.getD base = base + upToNewline bs

section LinesStart

variable {base : Nat} {starts : List Nat} {bs : List UInt8}

private theorem linesStart_nil (h : newline ∉ bs) : LinesStart base [] bs :=
  ⟨(List.count_eq_zero.2 h).symm, by rw [upToNewline_of_notMem h]; rfl⟩

/-- A line starts behind a line feed. -/
private theorem LinesStart.newline_cons (h : LinesStart (base + 1) starts bs) :
    LinesStart base ((base + 1) :: starts) (newline :: bs) := by
  refine ⟨by rw [List.length_cons, h.length, List.count_cons_self], ?_⟩
  have hone : upToNewline [newline] = 1 := by decide
  rw [List.getLast?_cons, Option.getD_some, h.last, ← List.singleton_append,
    upToNewline_append, hone,
    List.length_singleton]
  split
  · exact Nat.add_assoc base 1 _
  · rename_i hmem
    rw [upToNewline_of_notMem hmem]

/-- Lines start where they do behind text without line feeds. -/
theorem LinesStart.append {bs' : List UInt8} (h : LinesStart (base + bs'.length) starts bs)
    (hnone : newline ∉ bs') : LinesStart base starts (bs' ++ bs) := by
  refine ⟨by rw [h.length, List.count_append, List.count_eq_zero.2 hnone, Nat.zero_add], ?_⟩
  have hlast := h.last
  have hlength := h.length
  rw [upToNewline_append, upToNewline_of_notMem hnone]
  rcases List.eq_nil_or_concat starts with rfl | ⟨before, last, rfl⟩
  · rw [if_neg (List.count_eq_zero.1 hlength.symm)]
    rfl
  · have hmem : newline ∈ bs := List.count_pos_iff.1 (hlength ▸ by simp)
    rw [if_pos hmem]
    simpa [Nat.add_assoc] using hlast

end LinesStart

namespace Source

/-- The lines that start within the next `n` bytes of a text are those after the newlines among
them. -/
private theorem linesStart_startsAfterNewlines (base n : Nat) (cs : List Char) :
    LinesStart base ((startsAfterNewlines base cs).takeWhile (· ≤ base + n))
      ((cs.flatMap String.utf8EncodeChar).take n) := by
  induction cs generalizing base n with
  | nil => exact linesStart_nil (by simp)
  | cons c cs ih =>
    have hlength : (String.utf8EncodeChar c).length = c.utf8Size := String.length_utf8EncodeChar c
    have hbytes : newline ∈ String.utf8EncodeChar c ↔ c = '\n' := newline_mem_utf8EncodeChar_iff
    rw [List.flatMap_cons]
    by_cases hn : c.utf8Size ≤ n
    · -- The character is among them; what follows it starts behind it.
      have hmore := ih (base + c.utf8Size) (n - c.utf8Size)
      rw [Nat.add_assoc, Nat.add_sub_cancel' hn] at hmore
      rw [List.take_append, List.take_of_length_le (hlength ▸ hn), hlength, startsAfterNewlines]
      by_cases hc : c = '\n'
      · have hencode : String.utf8EncodeChar c = [newline] := hc ▸ by decide
        have hsize : c.utf8Size = 1 := hc ▸ rfl
        rw [hsize] at hn hmore ⊢
        rw [if_pos hc, List.takeWhile_cons_of_pos (by simpa using hn), hencode]
        exact hmore.newline_cons
      · rw [if_neg hc]
        rw [← hlength] at hmore ⊢
        exact hmore.append fun hmem => hc (hbytes.1 hmem)
    · -- It is not, nor is anything behind it.
      rw [takeWhile_startsAfterNewlines_eq_nil fun hle => hn (Nat.le_of_add_le_add_left hle),
        List.take_append_of_le_length (hlength ▸ Nat.le_of_not_le hn)]
      refine linesStart_nil fun hmem => ?_
      have hc := hbytes.1 (List.mem_of_mem_take hmem)
      obtain rfl : n = 0 := by
        rw [hc] at hn
        exact Nat.lt_one_iff.1 (Nat.not_le.1 hn)
      cases hmem

/-- Every offset has the line and the column of its byte. -/
theorem isAt_position (source : String) (offset : Nat) :
    ((ofText source.toList).position offset).IsAt source := by
  obtain ⟨hlength, hlast⟩ := linesStart_startsAfterNewlines 0 offset source.toList
  rw [Nat.zero_add] at hlength hlast
  have hstarts : (ofText source.toList).lineStarts.takeWhile (· ≤ offset) =
      0 :: (startsAfterNewlines 0 source.toList).takeWhile (· ≤ offset) := by
    simp [ofText]
  constructor
  · rw [position, hstarts, List.length_cons, hlength, bytes_eq, Nat.add_comm]
  · rw [position, hstarts, List.getLast?_cons, Option.getD_some, hlast, Nat.zero_add, bytes_eq]
    rfl

end Source

/-! ### Leaving the template -/

/-- The reader leaves the template in a raw text element, and whatever stands before it can be put
together. -/
def Overruns (source : String) : Prop :=
  ∃ tokens last, Scans source.utf8ByteSize ⟨source.toList, 0⟩ tokens last ∧
    last.Overruns source.utf8ByteSize ∧
    assemble (Source.ofText source.toList) (some .overrun) tokens [] [] = .error .overrun

theorem ends_start (source : String) : Cursor.Ends source.utf8ByteSize ⟨source.toList, 0⟩ := by
  rw [Cursor.Ends, utf8ByteSize_eq, Nat.zero_add]

private theorem scan_eq (source : String) :
    scan source.toList = scanFrom source.utf8ByteSize ⟨source.toList, 0⟩ := by
  rw [scan, utf8ByteSize_eq]

/-- Parsing overruns exactly on the templates of `Overruns`. -/
theorem parse_eq_overrun_iff {component source : String} :
    parse component source = .error .overrun ↔ Overruns source := by
  have hassemble := assemblesWithin_scan source.toList
  rw [parse_eq_overrun_iff_assemble]
  constructor
  · intro hresult
    -- Putting tokens together fails with an overrun only if the scan has done so.
    rw [hresult] at hassemble
    have hfailure : (scan source.toList).failure = some .overrun := hassemble
    have hscan : scanFrom source.utf8ByteSize ⟨source.toList, 0⟩ =
        ⟨(scan source.toList).tokens, some .overrun⟩ := by
      rw [← scan_eq, ← hfailure]
    obtain ⟨last, hscans, hover⟩ := (scanFrom_eq_overrun_iff (ends_start source)).1 hscan
    exact ⟨_, last, hscans, hover, hfailure ▸ hresult⟩
  · rintro ⟨tokens, last, hscans, hover, hresult⟩
    rw [scan_eq, (scanFrom_eq_overrun_iff (ends_start source)).2 ⟨last, hscans, hover⟩]
    exact hresult

private theorem byteLength_map_le {cs : List Char} {f : Char → Char}
    (h : ∀ c ∈ cs, (f c).utf8Size ≤ c.utf8Size) :
    byteLength (cs.map f) ≤ byteLength cs := by
  induction cs with
  | nil => exact Nat.le_refl _
  | cons c cs ih =>
    obtain ⟨hc, hcs⟩ := List.forall_mem_cons.1 h
    exact Nat.add_le_add hc (ih hcs)

/-- The reader leaves a template only if some character of it takes more bytes in lower case. -/
theorem exists_longer_of_overruns {source : String} (h : Overruns source) :
    ∃ c ∈ source.toList, c.utf8Size < (lowerChar c).utf8Size := by
  obtain ⟨tokens, last, hscans, ⟨tag, after, hopens, before, rest, hcut, hover⟩, -⟩ := h
  by_contra hnone
  have hstart := ends_start source
  have hlead : Cursor.Leads ⟨source.toList, 0⟩ after :=
    (hscans.leads hstart).trans (hopens.leads ((hscans.leads hstart).ends hstart))
  have hends : after.Ends source.utf8ByteSize := hlead.ends hstart
  obtain ⟨taken, hrest, -⟩ := hlead
  change source.toList = taken ++ after.rest at hrest
  -- Without such a character, what is found in lower case is found within the text.
  have hle : byteLength (after.rest.map lowerChar) ≤ byteLength after.rest := by
    refine byteLength_map_le fun c hc => Nat.not_lt.1 fun hlt => hnone ⟨c, ?_, hlt⟩
    exact hrest ▸ List.mem_append_right taken hc
  have hfound := congrArg byteLength (eq_of_cut?_eq_some hcut)
  rw [byteLength_append, byteLength_append] at hfound
  rw [Cursor.Ends] at hends
  omega

/-! ### Reading -/

/-- A span with the lines and columns of its ends, which lie within the text. -/
structure Span.LiesIn (source : String) (s : Span) : Prop where
  start : s.start.IsAt source
  stop : s.stop.IsAt source
  start_le : s.start.offset ≤ s.stop.offset
  stop_le : s.stop.offset ≤ source.utf8ByteSize

/-- An error of the parser names the component and lies in its template. -/
private theorem liesIn_of_parse_eq_error {component source : String} {e : ParseError}
    (h : parse component source = .error (.error e)) :
    e.component = component ∧ e.span.LiesIn source := by
  have hassemble := assemblesWithin_scan source.toList
  obtain ⟨start, stop, fault, hfault, rfl⟩ := parse_eq_error_iff.1 h
  rw [hfault] at hassemble
  refine ⟨rfl, Source.isAt_position source start, Source.isAt_position source stop, hassemble.1, ?_⟩
  rw [utf8ByteSize_eq]
  exact hassemble.2

/-- Reading a template always ends, since every step of the reader and every attribute in a tag
leaves less to read. It comes to a forest, or to an error of the component whose ends lie within the
template at the lines and columns of their bytes, exactly if the reader does not leave the template,
which it never does where no character takes more bytes in lower case. -/
theorem parse_total_iff (component source : String) :
    (∀ size, Shortens size (step size) ∧ ∀ tag, Shortens size (readAttribute size tag)) ∧
    (((∃ nodes, parse component source = .ok nodes) ∨
        ∃ e, parse component source = .error (.error e) ∧ e.component = component ∧
          e.span.LiesIn source) ↔ ¬Overruns source) ∧
    (Overruns source → ∃ c ∈ source.toList, c.utf8Size < (lowerChar c).utf8Size) := by
  refine ⟨fun size => ⟨shortens_step size, shortens_readAttribute size⟩, ?_,
    exists_longer_of_overruns⟩
  rw [← @parse_eq_overrun_iff component]
  cases hparse : parse component source with
  | ok nodes => simp
  | error rejection =>
    cases rejection with
    | error e => simpa using liesIn_of_parse_eq_error hparse
    | overrun => simp

/-- A style sheet of two characters that take two bytes each, and three each in lower case, makes
the reader leave the template. -/
theorem exists_template_overruns : ¬∀ component source : String,
    (∃ nodes, parse component source = .ok nodes) ∨
      ∃ e, parse component source = .error (.error e) ∧ e.component = component ∧
        e.span.LiesIn source := by
  intro h
  have hbody : "ȺȺ</style>".toList.map lowerChar = "ⱥⱥ</style>".toList := by decide
  have hopens : OpensRawText 19 ⟨"<style>ȺȺ</style>".toList, 0⟩ ⟨"style", [], 0, 7⟩
      ⟨"ȺȺ</style>".toList, 7⟩ :=
    ⟨by decide, by decide, by decide, by rw [readAttributes]; rfl, rfl, rfl⟩
  have hover : RunsOver 19 ⟨"style", [], 0, 7⟩ ⟨"ȺȺ</style>".toList, 7⟩ :=
    ⟨"ⱥⱥ".toList, ">".toList, by rw [hbody]; decide, by decide⟩
  have hleft : parse "Card" "<style>ȺȺ</style>" = .error .overrun :=
    parse_eq_overrun_iff.2 ⟨[], _, .stay _, ⟨_, _, hopens, hover⟩, rfl⟩
  rcases h "Card" "<style>ȺȺ</style>" with ⟨nodes, hok⟩ | ⟨e, herror, -⟩
  · exact absurd (hleft.symm.trans hok) (by simp)
  · exact absurd (hleft.symm.trans herror) (by simp)

end ViewCompiler.Template
