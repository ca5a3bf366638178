import LS8.Proofs.InstructionText
/-! The rows of a listing, as they stand on paper: `Row.print` writes a row and `readRows?` reads
all rows back from the text of a listing, knowing only how its columns are laid out
(`readRows?_text`). -/

namespace LS8.Listing

structure Row where
  address : Nat
  text : String
  raw : List UInt8
deriving DecidableEq, Repr

/-- The row as a line; the text is filled up to twelve characters. -/
def Row.print (r : Row) : String :=
  Numeral.hexUpper r.address ++ ": " ++ r.text ++ "".pushn ' ' (12 - r.text.length) ++ " ; " ++
    " ".intercalate (r.raw.map Numeral.binary) ++ "\n"

def Line.row (l : Line) : Row :=
  ⟨l.address, l.item.text, l.raw⟩

def rows (bytes : List UInt8) : List Row :=
  (lines bytes).map Line.row

theorem text_eq (bytes : List UInt8) :
    text bytes = header ++ String.join ((rows bytes).map Row.print) := by
  have hfoldl (ls : List Line) (out : String) :
      ls.foldl (fun out l => out ++ l.text) out =
        out ++ String.join ((ls.map Line.row).map Row.print) := by
    induction ls generalizing out with
    | nil => simp
    | cons l ls ih =>
      have hprint : l.text = l.row.print := rfl
      rw [List.foldl_cons, ih, List.map_cons, List.map_cons, String.join_cons, String.append_assoc,
        hprint]
  exact hfoldl (lines bytes) header

def Row.column (r : Row) : List Char :=
  r.text.toList ++ (List.replicate (12 - r.text.length) ' ' ++ [' '])

def Row.chars (r : Row) : List Char :=
  (Numeral.hexUpper r.address).toList ++ ':' :: ' ' :: (r.column ++
    ';' :: ' ' :: [' '].intercalate (r.raw.map Numeral.bits))

theorem Row.toList_print (r : Row) : r.print.toList = r.chars ++ ['\n'] := by
  simp [print, chars, column, Text.toList_pushn, Numeral.binary, Function.comp_def]

def readRow? (line : List Char) : Option Row := do
  let columns := (line.dropWhile (· ≠ ':')).drop 2
  let address ← Numeral.ofHexUpper? (line.takeWhile (· ≠ ':'))
  let raw ← (((columns.dropWhile (· ≠ ';')).drop 2).splitOn ' ').mapM Numeral.ofBits?
  return ⟨address, .ofList ((columns.takeWhile (· ≠ ';')).rdropWhile (· = ' ')), raw⟩

/-- Reads the rows of a listing. They stand after the three lines of the header, and nothing stands
after the last line feed. -/
def readRows? (listing : String) : Option (List Row) :=
  ((listing.toList.splitOn '\n').drop 3).dropLast.mapM readRow?

/-- What the text of a row has to be so that the columns can be told apart. -/
structure Row.Legible (r : Row) : Prop where
  semicolon : ';' ∉ r.text.toList
  feed : '\n' ∉ r.text.toList
  ends : ∀ c ∈ r.text.toList.getLast?, c ≠ ' '
  raw : r.raw ≠ []

theorem mapM_map_eq_some {α β : Type} {f : α → β} {g : β → Option α} {xs : List α}
    (h : ∀ x ∈ xs, g (f x) = some x) : (xs.map f).mapM g = some xs := by
  induction xs with
  | nil => rfl
  | cons x xs ih =>
    obtain ⟨hx, hxs⟩ := List.forall_mem_cons.1 h
    rw [List.map_cons, List.mapM_cons, hx, ih hxs]
    rfl

theorem Row.eq_blank_of_mem (r : Row) :
    ∀ c ∈ List.replicate (12 - r.text.length) ' ' ++ [' '], c = ' ' := by
  intro c hc
  rw [List.mem_append, List.mem_replicate, List.mem_singleton] at hc
  exact hc.elim And.right id

theorem Row.not_mem_column {r : Row} {d : Char} (htext : d ∉ r.text.toList) (hd : d ≠ ' ') :
    d ∉ r.column := by
  intro hmem
  rcases List.mem_append.1 hmem with hmem | hmem
  · exact htext hmem
  · exact hd (r.eq_blank_of_mem d hmem)

theorem Row.Legible.rdropWhile_column {r : Row} (h : r.Legible) :
    r.column.rdropWhile (· = ' ') = r.text.toList := by
  have hblank : ∀ c ∈ List.replicate (12 - r.text.length) ' ' ++ [' '], decide (c = ' ') :=
    fun c hc => decide_eq_true (r.eq_blank_of_mem c hc)
  rw [Row.column, Text.rdropWhile_append_of_pos hblank, List.rdropWhile_eq_self_iff]
  intro hne
  simpa using h.ends _ (List.getLast?_eq_some_getLast hne)

theorem not_mem_hexUpper {d : Char} (hd : d ∉ Numeral.hexDigits) (n : Nat) :
    d ∉ (Numeral.hexUpper n).toList :=
  fun hmem => hd (Numeral.mem_hexDigits n d hmem)

theorem not_mem_bits {d : Char} (hd : ¬ Numeral.isBit d) (raw : List UInt8) :
    ∀ t ∈ raw.map Numeral.bits, d ∉ t := by
  rw [List.forall_mem_map]
  exact fun b _ hmem => hd (Numeral.isBit_bits b d hmem)

theorem readRow?_chars {r : Row} (h : r.Legible) : readRow? r.chars = some r := by
  have hcolon : ':' ∉ (Numeral.hexUpper r.address).toList := not_mem_hexUpper (by decide) _
  have hraw : (r.raw.map Numeral.bits).mapM Numeral.ofBits? = some r.raw :=
    mapM_map_eq_some fun b _ => Numeral.ofBits?_bits b
  have hne : r.raw.map Numeral.bits ≠ [] := by simpa using h.raw
  have hsemicolon : ';' ∉ r.column := Row.not_mem_column h.semicolon (by decide)
  rw [readRow?, Row.chars, Text.dropWhile_append_separator hcolon (.inr rfl),
    Text.takeWhile_append_separator hcolon (.inr rfl), Numeral.ofHexUpper?_hexUpper]
  simp only [List.drop_succ_cons, List.drop_zero]
  rw [Text.dropWhile_append_separator hsemicolon (.inr rfl),
    Text.takeWhile_append_separator hsemicolon (.inr rfl), h.rdropWhile_column]
  simp only [List.drop_succ_cons, List.drop_zero]
  rw [List.splitOn_intercalate _ (not_mem_bits (by decide) _) hne, hraw, String.ofList_toList]
  rfl

theorem feed_not_mem_chars {r : Row} (h : r.Legible) : '\n' ∉ r.chars := by
  have haddress : '\n' ∉ (Numeral.hexUpper r.address).toList := not_mem_hexUpper (by decide) _
  have hraw := Text.not_mem_intercalate (by decide : '\n' ≠ ' ')
    (not_mem_bits (by decide : ¬ Numeral.isBit '\n') r.raw)
  have hcolumn : '\n' ∉ r.column := Row.not_mem_column h.feed (by decide)
  rw [Row.chars]
  simp only [List.mem_append, List.mem_cons, not_or]
  exact ⟨haddress, by decide, by decide, hcolumn, by decide, by decide, hraw⟩

/-- Lines that all end with a line feed, cut at the line feeds. -/
theorem splitOn_flatMap_feed {ls : List (List Char)} (h : ∀ l ∈ ls, '\n' ∉ l) :
    (ls.flatMap (· ++ ['\n'])).splitOn '\n' = ls ++ [[]] := by
  induction ls with
  | nil => rfl
  | cons l ls ih =>
    obtain ⟨hl, hls⟩ := List.forall_mem_cons.1 h
    rw [List.flatMap_cons, List.append_assoc, List.singleton_append,
      List.splitOn_append_cons_self_of_not_mem hl, ih hls]
    rfl

def headerLines : List (List Char) :=
  ["; LS-8 Disassembly".toList, "; -----------------".toList, []]

theorem readRows?_print {rs : List Row} (h : ∀ r ∈ rs, r.Legible) :
    readRows? (header ++ String.join (rs.map Row.print)) = some rs := by
  have hheader : header.toList = headerLines.flatMap (· ++ ['\n']) := by decide
  have hrows : (rs.map Row.print).flatMap String.toList =
      (rs.map Row.chars).flatMap (· ++ ['\n']) := by
    rw [List.flatMap_map, List.flatMap_map]
    exact List.flatMap_congr fun r _ => r.toList_print
  have hheaderFeed : ∀ l ∈ headerLines, '\n' ∉ l := by decide
  have hfeed : ∀ l ∈ headerLines ++ rs.map Row.chars, '\n' ∉ l := by
    intro l hl
    rcases List.mem_append.1 hl with hl | hl
    · exact hheaderFeed l hl
    · obtain ⟨r, hr, rfl⟩ := List.mem_map.1 hl
      exact feed_not_mem_chars (h r hr)
  have hlength : headerLines.length = 3 := rfl
  rw [readRows?, String.toList_append, String.toList_join, hheader, hrows, ← List.flatMap_append,
    splitOn_flatMap_feed hfeed, List.append_assoc, ← hlength, List.drop_left,
    List.dropLast_concat]
  exact mapM_map_eq_some fun r hr => readRow?_chars (h r hr)

def Item.bytes : Item → List UInt8
  | instruction i => i.encode
  | data b => [b]

theorem Item.denotes (x : Item) : Denotes x.text x.bytes := by
  cases x with
  | instruction i => exact .instruction i
  | data b => exact .data b

theorem Denotes.legible {t : String} {bs : List UInt8} (h : Denotes t bs) (address : Nat)
    {raw : List UInt8} (hraw : raw ≠ []) : Row.Legible ⟨address, t, raw⟩ := by
  cases h with
  | instruction i =>
    refine ⟨?_, ?_, ?_, hraw⟩
    · exact Instruction.not_mem_text (by decide) (by decide) (by decide)
    · exact Instruction.not_mem_text (by decide) (by decide) (by decide)
    · rintro c hc rfl
      cases i.isAlphanum_getLast?_text ' ' hc
  | data b =>
    refine ⟨?_, ?_, ?_, hraw⟩
    · exact not_mem_data (by decide) (by decide) b
    · exact not_mem_data (by decide) (by decide) b
    · rintro c hc rfl
      cases isAlphanum_getLast?_data b ' ' hc

theorem raw_ne_nil {addr : Nat} {bytes : List UInt8} {l : Line} (h : l ∈ linesFrom addr bytes) :
    l.raw ≠ [] := by
  fun_induction linesFrom addr bytes with
  | case1 => cases h
  | case2 addr b rest item ih =>
    rcases List.mem_cons.1 h with rfl | h
    · have hpos := item.width_pos
      simp only [ne_eq, List.take_eq_nil_iff, List.cons_ne_nil, or_false]
      omega
    · exact ih h

theorem rows_legible {bytes : List UInt8} {r : Row} (h : r ∈ rows bytes) : r.Legible := by
  obtain ⟨l, hl, rfl⟩ := List.mem_map.1 h
  exact l.item.denotes.legible l.address (raw_ne_nil hl)

/-- The rows of a listing are read back from its text. -/
theorem readRows?_text (bytes : List UInt8) : readRows? (text bytes) = some (rows bytes) := by
  rw [text_eq]
  exact readRows?_print fun r => rows_legible

end LS8.Listing
