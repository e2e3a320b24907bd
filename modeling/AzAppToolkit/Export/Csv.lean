import AzAppToolkit.Lib.Text

set_option autoImplicit false

/-! # Exported CSV and how it is read

`csv_field` of `commands/export.rs` against `parse_csv` of `commands/bulk_import.rs`, and against a
reader that takes a carriage return outside quotes for the end of a record, as spreadsheets do. A row
is written as its fields joined by commas and ended by a line feed.

A field is quoted for a comma, a quote or a line feed, not for a carriage return: what is written reads
back exactly when every carriage return is in a quoted field. -/

namespace Export

/-! ## Writing -/

/-- The characters a spreadsheet takes the cell they begin for a formula. -/
def startsFormula : Text → Bool
  | [] => false
  | c :: _ => ['=', '+', '-', '@', '\t', '\r'].contains c

/-- The formula-injection guard. -/
def neutralized (s : Text) : Text := if startsFormula s then '\'' :: s else s

/-- `replace('"', "\"\"")`. -/
def escaped (s : Text) : Text := s.flatMap (fun c => if c = '"' then ['"', '"'] else [c])

def isQuoted (s : Text) : Bool :=
  List.contains s ',' || List.contains s '"' || List.contains s '\n'

def csvField (s : Text) : Text :=
  if isQuoted (neutralized s) then '"' :: (escaped (neutralized s) ++ ['"']) else neutralized s

def csvRow (cells : List Text) : Text := Text.join [','] (cells.map csvField) ++ ['\n']

def csvText (rows : List (List Text)) : Text := rows.flatMap csvRow

/-! ## Reading -/

/-- The locals of the scan. -/
structure Scan where
  records : List (List Text)
  record : List Text
  field : Text
  inQuotes : Bool

namespace Scan

def start : Scan := ⟨[], [], [], false⟩

def push (s : Scan) (c : Char) : Scan := { s with field := s.field ++ [c] }

def endField (s : Scan) : Scan := { s with record := s.record ++ [s.field], field := [] }

def endRecord (s : Scan) : Scan :=
  { s with records := s.records ++ [s.record ++ [s.field]], record := [], field := [] }

/-- A character outside quotes, and the one after it. With `crEnds` a carriage return that no line
    feed follows ends the record. -/
def outside (crEnds : Bool) (s : Scan) (c : Char) (peek : Option Char) : Scan :=
  if c = '"' ∧ s.field = [] then { s with inQuotes := true }
  else if c = ',' then s.endField
  else if c = '\r' ∧ peek = some '\n' then s
  else if c = '\n' then s.endRecord
  else if crEnds = true ∧ c = '\r' then s.endRecord
  else s.push c

end Scan

/-- The loop of `parse_csv`. -/
def scan (crEnds : Bool) : Text → Scan → Scan
  | [], s => s
  | [c], s =>
    if s.inQuotes then (if c = '"' then { s with inQuotes := false } else s.push c)
    else s.outside crEnds c none
  | c :: d :: rest, s =>
    if s.inQuotes then
      if c = '"' then
        if d = '"' then scan crEnds rest (s.push '"')
        else scan crEnds (d :: rest) { s with inQuotes := false }
      else scan crEnds (d :: rest) (s.push c)
    else scan crEnds (d :: rest) (s.outside crEnds c (some d))

def Scan.finish (s : Scan) : Except Text (List (List Text)) :=
  if s.inQuotes then .error "a quoted field is never closed".toList
  else if s.field ≠ [] ∨ s.record ≠ [] then .ok (s.records ++ [s.record ++ [s.field]])
  else .ok s.records

def readCsv (crEnds : Bool) (content : Text) : Except Text (List (List Text)) :=
  (scan crEnds content .start).finish

def parseCsv (content : Text) : Except Text (List (List Text)) := readCsv false content

/-- A reader that also ends a record at a carriage return outside quotes. -/
def spreadsheetCells (content : Text) : Except Text (List (List Text)) := readCsv true content

/-! ## Reading back -/

/-- Every carriage return is in a quoted field. -/
def ReturnsQuoted (rows : List (List Text)) : Prop :=
  ∀ row ∈ rows, ∀ cell ∈ row, '\r' ∈ cell → isQuoted cell = true

instance (rows : List (List Text)) : Decidable (ReturnsQuoted rows) := by
  unfold ReturnsQuoted
  infer_instance

/-- What was written, and no formula, for both readers. -/
structure ReadsBack (rows : List (List Text)) : Prop where
  parsed : parseCsv (csvText rows) = .ok (rows.map (List.map neutralized))
  seen : spreadsheetCells (csvText rows) = .ok (rows.map (List.map neutralized))
  noFormula : ∀ records, parseCsv (csvText rows) = .ok records ∨
    spreadsheetCells (csvText rows) = .ok records →
      ∀ row ∈ records, ∀ cell ∈ row, startsFormula cell = false

/-! ### A field -/

theorem neutralized_cases (s : Text) :
    (startsFormula s = true ∧ neutralized s = '\'' :: s) ∨
      (startsFormula s = false ∧ neutralized s = s) := by
  unfold neutralized
  cases h : startsFormula s with
  | true => exact .inl ⟨rfl, if_pos rfl⟩
  | false => exact .inr ⟨rfl, if_neg Bool.false_ne_true⟩

theorem startsFormula_neutralized (s : Text) : startsFormula (neutralized s) = false := by
  rcases neutralized_cases s with ⟨-, h⟩ | ⟨hs, h⟩
  · rw [h]
    rfl
  · rw [h, hs]

/-- The guard's apostrophe is neither a carriage return nor a reason to quote. -/
theorem isQuoted_neutralized (s : Text) : isQuoted (neutralized s) = isQuoted s := by
  rcases neutralized_cases s with ⟨-, h⟩ | ⟨-, h⟩
  · rw [h]
    unfold isQuoted
    simp
  · rw [h]

theorem mem_return_neutralized (s : Text) : '\r' ∈ neutralized s ↔ '\r' ∈ s := by
  rcases neutralized_cases s with ⟨-, h⟩ | ⟨-, h⟩
  · rw [h]
    simp
  · rw [h]

theorem not_isQuoted_iff {s : Text} : isQuoted s = false ↔ ',' ∉ s ∧ '"' ∉ s ∧ '\n' ∉ s := by
  unfold isQuoted
  simp [and_assoc]

/-- The characters of an unquoted field without a carriage return are pushed one by one. -/
theorem scan_plain (crEnds : Bool) (a : Text) {next : Char} (rest : Text) {s : Scan}
    (hs : s.inQuotes = false) (ha : ∀ c ∈ a, c ≠ ',' ∧ c ≠ '"' ∧ c ≠ '\n' ∧ c ≠ '\r') :
    scan crEnds (a ++ next :: rest) s = scan crEnds (next :: rest) { s with field := s.field ++ a } := by
  induction a generalizing s with
  | nil => simp
  | cons c a ih =>
    obtain ⟨hcomma, hquote, hline, hreturn⟩ := ha c List.mem_cons_self
    have hpush : ∀ peek, s.outside crEnds c peek = s.push c := by
      intro peek
      unfold Scan.outside
      simp only [hcomma, hquote, hline, hreturn, false_and, and_false, if_false]
    have hstep : scan crEnds (c :: (a ++ next :: rest)) s =
        scan crEnds (a ++ next :: rest) (s.push c) := by
      cases hrest : a ++ next :: rest with
      | nil => exact absurd hrest (by simp)
      | cons d tail =>
        rw [scan]
        simp only [hs, Bool.false_eq_true, if_false, hpush]
    rw [List.cons_append, hstep,
      ih (by exact hs) (fun d hd => ha d (List.mem_cons_of_mem c hd))]
    unfold Scan.push
    simp

/-- Inside quotes the escaped text is read up to the closing quote. -/
theorem scan_escaped (crEnds : Bool) (a : Text) {next : Char} (hnext : next ≠ '"') (rest : Text)
    {s : Scan} (hs : s.inQuotes = true) :
    scan crEnds (escaped a ++ '"' :: next :: rest) s =
      scan crEnds (next :: rest) { s with field := s.field ++ a, inQuotes := false } := by
  induction a generalizing s with
  | nil =>
    show scan crEnds ('"' :: next :: rest) s = _
    rw [scan]
    simp [hs, hnext]
  | cons c a ih =>
    by_cases hc : c = '"'
    · subst hc
      show scan crEnds ('"' :: '"' :: (escaped a ++ '"' :: next :: rest)) s = _
      rw [scan]
      simp only [hs, if_true]
      rw [ih (by exact hs)]
      unfold Scan.push
      simp
    · have hescaped : escaped (c :: a) = c :: escaped a := by
        unfold escaped
        rw [List.flatMap_cons, if_neg hc]
        rfl
      have hstep : scan crEnds (c :: (escaped a ++ '"' :: next :: rest)) s =
          scan crEnds (escaped a ++ '"' :: next :: rest) (s.push c) := by
        cases hrest : escaped a ++ '"' :: next :: rest with
        | nil => exact absurd hrest (by simp)
        | cons d tail =>
          rw [scan]
          simp only [hs, hc, if_true, if_false]
      rw [hescaped, List.cons_append, hstep, ih (by exact hs)]
      unfold Scan.push
      simp

/-- A field whose carriage returns are quoted is read as it was written. -/
theorem scan_csvField (crEnds : Bool) {cell : Text} (hcell : '\r' ∈ cell → isQuoted cell = true)
    {next : Char} (hnext : next ≠ '"') (rest : Text) (records : List (List Text)) (record : List Text) :
    scan crEnds (csvField cell ++ next :: rest) ⟨records, record, [], false⟩ =
      scan crEnds (next :: rest) ⟨records, record, neutralized cell, false⟩ := by
  unfold csvField
  cases hquoted : isQuoted (neutralized cell) with
  | true =>
    rw [if_pos rfl]
    have hopen : scan crEnds ('"' :: (escaped (neutralized cell) ++ '"' :: next :: rest))
        ⟨records, record, [], false⟩ =
        scan crEnds (escaped (neutralized cell) ++ '"' :: next :: rest)
          ⟨records, record, [], true⟩ := by
      cases hrest : escaped (neutralized cell) ++ '"' :: next :: rest with
      | nil => exact absurd hrest (by simp)
      | cons d tail =>
        rw [scan]
        simp [Scan.outside]
    rw [List.cons_append, List.append_assoc, List.cons_append, List.nil_append, hopen,
      scan_escaped crEnds _ hnext rest rfl]
    simp
  | false =>
    rw [if_neg Bool.false_ne_true]
    obtain ⟨hcomma, hquote, hline⟩ := not_isQuoted_iff.1 hquoted
    have hreturn : '\r' ∉ neutralized cell := by
      intro hmem
      rw [isQuoted_neutralized, hcell ((mem_return_neutralized cell).1 hmem)] at hquoted
      exact Bool.noConfusion hquoted
    have hplain : ∀ c ∈ neutralized cell, c ≠ ',' ∧ c ≠ '"' ∧ c ≠ '\n' ∧ c ≠ '\r' :=
      fun c hc => ⟨fun h => hcomma (h ▸ hc), fun h => hquote (h ▸ hc),
        fun h => hline (h ▸ hc), fun h => hreturn (h ▸ hc)⟩
    rw [scan_plain crEnds _ rest rfl hplain]
    simp

/-! ### Rows -/

theorem scan_comma (crEnds : Bool) (rest : Text) (records : List (List Text)) (record : List Text)
    (field : Text) :
    scan crEnds (',' :: rest) ⟨records, record, field, false⟩ =
      scan crEnds rest ⟨records, record ++ [field], [], false⟩ := by
  cases rest <;> simp [scan, Scan.outside, Scan.endField]

theorem scan_newline (crEnds : Bool) (rest : Text) (records : List (List Text)) (record : List Text)
    (field : Text) :
    scan crEnds ('\n' :: rest) ⟨records, record, field, false⟩ =
      scan crEnds rest ⟨records ++ [record ++ [field]], [], [], false⟩ := by
  cases rest <;> simp [scan, Scan.outside, Scan.endRecord]

theorem csvRow_cons_cons (a b : Text) (cells : List Text) :
    csvRow (a :: b :: cells) = csvField a ++ ',' :: csvRow (b :: cells) := by
  unfold csvRow Text.join
  simp [List.intercalate]

theorem csvRow_singleton (a : Text) : csvRow [a] = csvField a ++ ['\n'] := by
  unfold csvRow Text.join
  simp [List.intercalate]

theorem scan_csvRow (crEnds : Bool) {cells : List Text} (hne : cells ≠ [])
    (hcells : ∀ cell ∈ cells, '\r' ∈ cell → isQuoted cell = true) (rest : Text)
    (records : List (List Text)) (record : List Text) :
    scan crEnds (csvRow cells ++ rest) ⟨records, record, [], false⟩ =
      scan crEnds rest ⟨records ++ [record ++ cells.map neutralized], [], [], false⟩ := by
  induction cells generalizing record with
  | nil => exact absurd rfl hne
  | cons a cells ih =>
    have ha := hcells a List.mem_cons_self
    cases cells with
    | nil =>
      rw [csvRow_singleton, List.append_assoc, List.cons_append, List.nil_append,
        scan_csvField crEnds ha (by decide), scan_newline]
      rfl
    | cons b cells =>
      rw [csvRow_cons_cons, List.append_assoc, List.cons_append,
        scan_csvField crEnds ha (by decide), scan_comma,
        ih (List.cons_ne_nil b cells) (fun cell hcell => hcells cell (List.mem_cons_of_mem a hcell))]
      simp

theorem scan_csvText (crEnds : Bool) {rows : List (List Text)} (hne : ∀ row ∈ rows, row ≠ [])
    (hquoted : ReturnsQuoted rows) (rest : Text) (records : List (List Text)) :
    scan crEnds (csvText rows ++ rest) ⟨records, [], [], false⟩ =
      scan crEnds rest ⟨records ++ rows.map (List.map neutralized), [], [], false⟩ := by
  induction rows generalizing records with
  | nil => simp [csvText]
  | cons row rows ih =>
    have hrows : ReturnsQuoted rows := fun row' hrow' => hquoted row' (List.mem_cons_of_mem row hrow')
    show scan crEnds (csvRow row ++ csvText rows ++ rest) _ = _
    rw [List.append_assoc, scan_csvRow crEnds (hne row List.mem_cons_self)
      (hquoted row List.mem_cons_self),
      ih (fun row' hrow' => hne row' (List.mem_cons_of_mem row hrow')) hrows]
    simp

theorem readCsv_csvText (crEnds : Bool) {rows : List (List Text)} (hne : ∀ row ∈ rows, row ≠ [])
    (hquoted : ReturnsQuoted rows) :
    readCsv crEnds (csvText rows) = .ok (rows.map (List.map neutralized)) := by
  have hscan := scan_csvText crEnds hne hquoted [] []
  rw [List.append_nil, List.nil_append] at hscan
  unfold readCsv
  rw [Scan.start, hscan]
  simp [scan, Scan.finish]

/-! ### A carriage return outside quotes -/

/-- What has been recorded stays. -/
theorem scan_records (crEnds : Bool) (content : Text) (s : Scan) :
    s.records <+: (scan crEnds content s).records := by
  have houtside : ∀ (s : Scan) (c : Char) (peek : Option Char),
      s.records <+: (s.outside crEnds c peek).records := by
    intro s c peek
    unfold Scan.outside
    split_ifs <;> simp [Scan.endField, Scan.endRecord, Scan.push]
  induction content, s using scan.induct crEnds with
  | case1 s => exact List.prefix_refl _
  | case2 s hquotes => simp [scan, hquotes]
  | case3 c s hquotes hc => simp [scan, hquotes, hc, Scan.push]
  | case4 c s hquotes =>
    rw [scan, if_neg hquotes]
    exact houtside s c none
  | case5 rest s hquotes ih =>
    rw [scan, if_pos hquotes, if_pos rfl, if_pos rfl]
    exact ih
  | case6 d rest s hquotes hd ih =>
    rw [scan, if_pos hquotes, if_pos rfl, if_neg hd]
    exact ih
  | case7 c d rest s hquotes hc ih =>
    rw [scan, if_pos hquotes, if_neg hc]
    exact ih
  | case8 c d rest s hquotes ih =>
    rw [scan, if_neg hquotes]
    exact (houtside s c (some d)).trans ih

theorem finish_records {s : Scan} {records : List (List Text)} (h : s.finish = .ok records) :
    s.records <+: records := by
  unfold Scan.finish at h
  split_ifs at h
  · obtain rfl := Except.ok.inj h
    exact List.prefix_append _ _
  · obtain rfl := Except.ok.inj h
    exact List.prefix_refl _

/-- The first element without a property. -/
theorem first_failing {α : Type} {p : α → Prop} {l : List α} (h : ¬ ∀ x ∈ l, p x) :
    ∃ a x b, l = a ++ x :: b ∧ (∀ y ∈ a, p y) ∧ ¬ p x := by
  induction l with
  | nil => exact absurd (fun x hx => absurd hx List.not_mem_nil) h
  | cons y l ih =>
    by_cases hy : p y
    · have hl : ¬ ∀ x ∈ l, p x := by
        intro hall
        apply h
        intro x hx
        rcases List.mem_cons.1 hx with rfl | hx
        · exact hy
        · exact hall x hx
      obtain ⟨a, x, b, rfl, ha, hx⟩ := ih hl
      refine ⟨y :: a, x, b, rfl, ?_, hx⟩
      intro z hz
      rcases List.mem_cons.1 hz with rfl | hz
      · exact hy
      · exact ha z hz
    · exact ⟨[], y, l, rfl, fun x hx => absurd hx List.not_mem_nil, hy⟩

/-- Before a field the fields of its row are read as they were written. -/
theorem scan_csvRow_before (crEnds : Bool) {cells : List Text} (cell : Text) (after : List Text)
    (hcells : ∀ cell ∈ cells, '\r' ∈ cell → isQuoted cell = true) (rest : Text)
    (records : List (List Text)) (record : List Text) :
    scan crEnds (csvRow (cells ++ cell :: after) ++ rest) ⟨records, record, [], false⟩ =
      scan crEnds (csvRow (cell :: after) ++ rest)
        ⟨records, record ++ cells.map neutralized, [], false⟩ := by
  induction cells generalizing record with
  | nil => simp
  | cons a cells ih =>
    obtain ⟨b, tail, htail⟩ : ∃ b tail, cells ++ cell :: after = b :: tail := by
      cases cells with
      | nil => exact ⟨cell, after, rfl⟩
      | cons b cells => exact ⟨b, cells ++ cell :: after, rfl⟩
    have hbefore := ih (fun cell hcell => hcells cell (List.mem_cons_of_mem a hcell))
      (record ++ [neutralized a])
    rw [htail] at hbefore
    rw [List.cons_append, htail, csvRow_cons_cons, List.append_assoc, List.cons_append,
      scan_csvField crEnds (hcells a List.mem_cons_self) (by decide), scan_comma, hbefore]
    simp

/-- A carriage return outside quotes ends the record, with a line feed after it or without. -/
theorem scan_return (d : Char) (tail : Text) (records : List (List Text)) (record : List Text)
    (field : Text) :
    ∃ rest, scan true ('\r' :: d :: tail) ⟨records, record, field, false⟩ =
      scan true rest ⟨records ++ [record ++ [field]], [], [], false⟩ := by
  by_cases hd : d = '\n'
  · subst hd
    refine ⟨tail, ?_⟩
    rw [← scan_newline true tail records record field, scan]
    simp [Scan.outside]
  · refine ⟨d :: tail, ?_⟩
    rw [scan]
    simp [Scan.outside, Scan.endRecord, hd]

/-- A field with a carriage return outside quotes is cut there. -/
theorem scan_badField {cell : Text} (hreturn : '\r' ∈ cell) (hquoted : isQuoted cell = false)
    (after : List Text) (rest : Text) (records : List (List Text)) (record : List Text) :
    ∃ cut rest', cut ≠ neutralized cell ∧
      scan true (csvRow (cell :: after) ++ rest) ⟨records, record, [], false⟩ =
        scan true rest' ⟨records ++ [record ++ [cut]], [], [], false⟩ := by
  have hwhole : csvField cell = neutralized cell := by
    unfold csvField
    rw [isQuoted_neutralized, hquoted, if_neg Bool.false_ne_true]
  have hrow : ∃ next tail, csvRow (cell :: after) ++ rest = csvField cell ++ next :: tail := by
    cases after with
    | nil => exact ⟨'\n', rest, by rw [csvRow_singleton]; simp⟩
    | cons b after => exact ⟨',', csvRow (b :: after) ++ rest, by rw [csvRow_cons_cons]; simp⟩
  obtain ⟨next, tail, hrow⟩ := hrow
  have hmem : ¬ ∀ c ∈ neutralized cell, c ≠ '\r' :=
    fun hall => hall '\r' ((mem_return_neutralized cell).2 hreturn) rfl
  obtain ⟨cut, c, b, hcell, hcut, hc⟩ := first_failing hmem
  obtain rfl := not_not.1 hc
  rw [← isQuoted_neutralized] at hquoted
  obtain ⟨hcomma, hquote, hline⟩ := not_isQuoted_iff.1 hquoted
  have hplain : ∀ c ∈ cut, c ≠ ',' ∧ c ≠ '"' ∧ c ≠ '\n' ∧ c ≠ '\r' := by
    intro c hc
    have hin : c ∈ neutralized cell := hcell ▸ List.mem_append_left _ hc
    exact ⟨fun h => hcomma (h ▸ hin), fun h => hquote (h ▸ hin), fun h => hline (h ▸ hin),
      hcut c hc⟩
  obtain ⟨d, tail', htail⟩ : ∃ d tail', b ++ next :: tail = d :: tail' := by
    cases b with
    | nil => exact ⟨next, tail, rfl⟩
    | cons d b => exact ⟨d, b ++ next :: tail, rfl⟩
  obtain ⟨rest', hrest⟩ := scan_return d tail' records record cut
  refine ⟨cut, rest', ?_, ?_⟩
  · intro heq
    exact hcut '\r' (heq ▸ (mem_return_neutralized cell).2 hreturn) rfl
  · rw [hrow, hwhole, hcell, List.append_assoc, List.cons_append, htail,
      scan_plain true _ _ rfl hplain]
    exact hrest

/-- A reader that ends records at carriage returns reads back no table with one outside quotes. -/
theorem returnsQuoted_of_seen {rows : List (List Text)} (hne : ∀ row ∈ rows, row ≠ [])
    (h : spreadsheetCells (csvText rows) = .ok (rows.map (List.map neutralized))) :
    ReturnsQuoted rows := by
  by_contra hbad
  obtain ⟨before, row, after, rfl, hbefore, hrow⟩ := first_failing hbad
  obtain ⟨cells, cell, others, rfl, hcells, hcell⟩ := first_failing hrow
  obtain ⟨hreturn, hquoted⟩ := Classical.not_imp.1 hcell
  obtain ⟨cut, rest', hcut, hcutRow⟩ := scan_badField hreturn (Bool.eq_false_iff.2 hquoted) others
    (csvText after) (before.map (List.map neutralized)) (cells.map neutralized)
  have hscan : scan true (csvText (before ++ (cells ++ cell :: others) :: after)) .start =
      scan true rest' ⟨before.map (List.map neutralized) ++ [cells.map neutralized ++ [cut]],
        [], [], false⟩ := by
    have htext : csvText (before ++ (cells ++ cell :: others) :: after) =
        csvText before ++ (csvRow (cells ++ cell :: others) ++ csvText after) := by
      unfold csvText
      rw [List.flatMap_append, List.flatMap_cons]
    have hfirst : ∀ row ∈ before, row ≠ [] := fun row hrow => hne row (List.mem_append_left _ hrow)
    rw [htext, Scan.start, scan_csvText true hfirst hbefore,
      scan_csvRow_before true cell others hcells, List.nil_append, List.nil_append]
    exact hcutRow
  unfold spreadsheetCells readCsv at h
  rw [hscan] at h
  have hprefix := (scan_records true rest' _).trans (finish_records h)
  rw [List.map_append, List.map_cons, List.map_append, List.map_cons,
    List.prefix_append_right_inj, List.cons_prefix_cons] at hprefix
  have hsame := List.append_cancel_left hprefix.1
  exact hcut (List.cons.inj hsame).1

/-! ## The round trip -/

/-- What is written reads back, for both readers and with no formula, exactly when every carriage
    return is in a quoted field. -/
theorem csv_reads_back_iff (rows : List (List Text)) (hne : ∀ row ∈ rows, row ≠ []) :
    ReadsBack rows ↔ ReturnsQuoted rows := by
  constructor
  · intro h
    exact returnsQuoted_of_seen hne h.seen
  · intro hquoted
    have hparsed : ∀ crEnds, readCsv crEnds (csvText rows) = .ok (rows.map (List.map neutralized)) :=
      fun crEnds => readCsv_csvText crEnds hne hquoted
    refine ⟨hparsed false, hparsed true, ?_⟩
    intro records hrecords row hrow cell hcell
    have hsame : records = rows.map (List.map neutralized) := by
      rcases hrecords with h | h
      · exact Except.ok.inj (h.symm.trans (hparsed false))
      · exact Except.ok.inj (h.symm.trans (hparsed true))
    subst hsame
    obtain ⟨row', -, rfl⟩ := List.mem_map.1 hrow
    obtain ⟨cell', -, rfl⟩ := List.mem_map.1 hcell
    exact startsFormula_neutralized cell'

/-- A name that begins like a formula, with a comma, a quote and both line ends. -/
theorem csv_reads_back_iff_quoted : ReadsBack [["=a,\"b".toList, "line\r\nline".toList], [[]]] :=
  (csv_reads_back_iff _ (by simp)).2 (by decide)

/-- A carriage return outside quotes splits a name, and the second part is a formula. -/
theorem return_starts_formula : ¬ ∀ rows : List (List Text), (∀ row ∈ rows, row ≠ []) → ReadsBack rows := by
  intro hclaim
  have hback := (csv_reads_back_iff _ (by simp)).1 (hclaim [["a\r=b".toList]] (by simp))
  exact absurd hback (by decide)

end Export
