import SectorFS.Proofs.File.Cursor
import SectorFS.Proofs.File.InPlace
import SectorFS.Proofs.File.Recorded
import SectorFS.Proofs.Text.Rendering

/-!
# A file's data as text

`Header.contents` follows the chain block by block and counts the file's bytes down, while
`File.readAt` looks every sector up by its place and cuts the transfer at the end of the file. For
an allocated header both do the same: on whatever disk, they ask for the same sectors in the same
order, and the lines of the text are the rows of the bytes (`Header.Lists.echoes_contents`).
`Header.contentsInPlace` puts one character behind the other and gives up if its count would run
below zero, which never happens (`Header.contentsInPlace_eq`).
-/

namespace SectorFS

namespace Header

/-! ## Rows -/

/-- The first `count` rows of the bytes, of one sector each. The last one may be shorter. -/
def rows (count : Nat) (bytes : List UInt8) : List (List UInt8) :=
  (List.range count).map fun i => (bytes.drop (sectorSize * i)).take sectorSize

theorem rows_succ (count : Nat) (bytes : List UInt8) :
    rows (count + 1) bytes = bytes.take sectorSize :: rows count (bytes.drop sectorSize) := by
  simp only [rows, List.range_succ_eq_map, List.map_cons, List.map_map, Nat.mul_zero,
    List.drop_zero, List.drop_drop, Function.comp_def, Nat.succ_eq_add_one, Nat.mul_add_one,
    Nat.add_comm]

/-- Behind a row that is not full there are no more bytes. -/
theorem rows_append {row rest : List UInt8} {remaining : Nat} (count : Nat)
    (front : row.length = min remaining sectorSize) (back : rest.length = remaining - sectorSize) :
    rows (count + 1) (row ++ rest) = row :: rows count rest := by
  rw [rows_succ]
  by_cases full : row.length = sectorSize
  · rw [List.take_left' full, List.drop_left' full]
  · have none : rest = [] := List.length_eq_zero_iff.mp (by omega)
    have short : row.length ≤ sectorSize := by omega
    rw [none, List.append_nil, List.take_of_length_le short, List.drop_of_length_le short]

theorem getElem?_rows {count i : Nat} {bytes row : List UInt8} :
    (rows count bytes)[i]? = some row ↔ i < count ∧
      bytes.extract (sectorSize * i) (min (sectorSize * (i + 1)) bytes.length) = row := by
  have cut : bytes.extract (sectorSize * i) (min (sectorSize * (i + 1)) bytes.length) =
      (bytes.drop (sectorSize * i)).take sectorSize := by
    rw [List.extract_eq_take_drop, List.take_eq_take_iff, List.length_drop, Nat.mul_add_one]
    omega
  rw [cut]
  simp [rows, List.getElem?_eq_some_iff]

theorem contentLines_cons (s : Nat) (rest : List Nat) (remaining : Nat) :
    contentLines (s :: rest) remaining = do
      let line := renderLine ((← Disk.read s).bytes.take remaining)
      return line :: (← contentLines rest (remaining - sectorSize)) := by
  have left : remaining - min remaining sectorSize = remaining - sectorSize := by omega
  simp only [contentLines, File.take_min_bytes, left]

/-- Rendering sectors and reading them ask for the same sectors. The lines are those of the rows of
the bytes. -/
theorem echoes_contentLines {sectors : List Nat} {remaining : Nat}
    (covers : sectors.length = Size.units remaining sectorSize) :
    Echoes (fun lines bytes => bytes.length = remaining ∧
        lines = (rows sectors.length bytes).map renderLine)
      (contentLines sectors remaining) (File.readAlong sectors remaining) := by
  have positive : 0 < sectorSize := by decide
  induction sectors generalizing remaining with
  | nil =>
    have := Size.le_units_mul positive remaining
    rw [← covers, List.length_nil, Nat.zero_mul] at this
    exact .done ⟨(Nat.le_zero.mp this).symm, rfl⟩
  | cons s rest ih =>
    have more : remaining ≠ 0 := by
      rintro rfl
      rw [Size.units_zero positive] at covers
      cases covers
    rw [Size.units_of_pos positive more, List.length_cons] at covers
    rw [contentLines_cons, File.readAlong]
    refine .andThen fun sector => .step (ih (Nat.succ.inj covers)) fun lines bytes ends => .done ?_
    obtain ⟨length, shown⟩ := ends
    have row : (sector.bytes.take remaining).length = min remaining sectorSize := by
      rw [List.length_take, sector.length_bytes]
    constructor
    · rw [List.length_append, row, length]
      omega
    · rw [List.length_cons, rows_append _ row length, List.map_cons, shown]

/-! ## Lines -/

/-- The text of each row, without its newline. -/
def lines (count : Nat) (bytes : List UInt8) : List (List Char) :=
  (rows count bytes).map (·.flatMap renderByte)

theorem toList_renderLine (bytes : List UInt8) :
    (renderLine bytes).toList = bytes.flatMap renderByte ++ ['\n'] := String.toList_ofList

theorem newline_notMem_lines {count : Nat} {bytes : List UInt8} {line : List Char}
    (mem : line ∈ lines count bytes) : '\n' ∉ line := by
  obtain ⟨row, -, rfl⟩ := List.mem_map.mp mem
  exact (Text.renders_iff.mpr rfl).newline_notMem

/-- Cut at its newlines, the text is these lines again, with nothing behind the last newline. -/
theorem splitOn_join (count : Nat) (bytes : List UInt8) :
    (String.join ((rows count bytes).map renderLine)).toList.splitOn '\n' =
      lines count bytes ++ [[]] := by
  rw [← Text.splitOn_lines fun line mem => newline_notMem_lines mem]
  simp [lines, String.toList_join, List.flatMap_map, toList_renderLine]

/-- A line shows the bytes at its place. -/
theorem getElem?_lines {count i : Nat} {bytes : List UInt8} {line : List Char} :
    (lines count bytes)[i]? = some line ↔ i < count ∧
      Text.Renders (bytes.extract (sectorSize * i) (min (sectorSize * (i + 1)) bytes.length))
        line := by
  rw [lines, List.getElem?_map, Option.map_eq_some_iff, Text.renders_iff]
  constructor
  · rintro ⟨row, there, rfl⟩
    obtain ⟨inside, rfl⟩ := getElem?_rows.mp there
    exact ⟨inside, rfl⟩
  · rintro ⟨inside, rfl⟩
    exact ⟨_, getElem?_rows.mpr ⟨inside, rfl⟩, rfl⟩

/-! ## Character by character -/

/-- Puts a byte behind the text. -/
def pushByte (text : String) (b : UInt8) : String :=
  if 0x20 ≤ b && b ≤ 0x7e then text.push (Char.ofNat b.toNat)
  else text.push '\\' ++ String.ofList (Nat.toDigits 16 b.toNat)

/-- The bytes that remain when some are taken off, if there are as many. -/
def takeOff? (remaining shown : Nat) : Option Nat :=
  if shown ≤ remaining then some (remaining - shown) else none

/-- Puts the lines of the given sectors behind the text and counts the bytes down. There is no
result if the count would run below zero. -/
def appendLines : List Nat → String → Nat → DiskM (Option (String × Nat))
  | [], text, remaining => return some (text, remaining)
  | sector :: rest, text, remaining => do
    let data ← Disk.read sector
    let shown := min remaining sectorSize
    let text := ((data.bytes.take shown).foldl pushByte text).push '\n'
    match takeOff? remaining shown with
    | some remaining => appendLines rest text remaining
    | none => return none

/-- The file's data as text, and how many of its bytes remain that are not in it. -/
def contentsInPlace (header : Header) : DiskM (Option (String × Nat)) :=
  appendLines header.dataSectors "" header.length

theorem toList_foldl_pushByte (bytes : List UInt8) (text : String) :
    (bytes.foldl pushByte text).toList = text.toList ++ bytes.flatMap renderByte := by
  induction bytes generalizing text with
  | nil => simp
  | cons b bytes ih =>
    have first : (pushByte text b).toList = text.toList ++ renderByte b := by
      unfold pushByte renderByte
      split <;> simp
    simp [ih, first]

/-- The count never runs below zero, and the lines come behind the text. -/
theorem appendLines_eq (sectors : List Nat) (text : String) (remaining : Nat) :
    appendLines sectors text remaining =
      (fun lines => some (text ++ String.join lines, remaining - sectors.length * sectorSize)) <$>
        contentLines sectors remaining := by
  induction sectors generalizing text remaining with
  | nil => simp [appendLines, contentLines, String.join]
  | cons s rest ih =>
    have enough : min remaining sectorSize ≤ remaining := Nat.min_le_left ..
    have left : remaining - min remaining sectorSize - rest.length * sectorSize =
        remaining - (rest.length + 1) * sectorSize := by
      rw [Nat.succ_mul]
      omega
    have line (bytes : List UInt8) :
        (bytes.foldl pushByte text).push '\n' = text ++ renderLine bytes := by
      apply String.toList_injective
      simp [toList_foldl_pushByte, toList_renderLine]
    simp only [appendLines, contentLines, takeOff?, enough, if_true, ih, left, line,
      List.length_cons, map_eq_pure_bind, bind_assoc, pure_bind, String.join_cons,
      String.append_assoc]

/-- Whatever the header is, the count does not run below zero, and the text is the same. -/
theorem contentsInPlace_eq (header : Header) :
    header.contentsInPlace =
      (fun text => some (text, header.length - header.dataSectors.length * sectorSize)) <$>
        header.contents := by
  rw [contentsInPlace, appendLines_eq, contents]
  simp

/-! ## Allocated headers -/

variable {before header : Header} {map map' : FreeMap} {size : Nat} {taken : List Nat}

theorem blocks_eq_nil_of_allocate (allocated : before.allocate map size = .ok (header, map')) :
    before.chain.blocks = [] := by
  by_cases large : Size.limit ≤ size + sectorSize
  · rw [allocate_of_le before large] at allocated
    cases allocated
  · cases used : before.chain.blocks with
    | nil => rfl
    | cons stored blocks =>
      rw [allocate, Size.ceilDiv_of_lt (Nat.not_le.mp large), used] at allocated
      cases allocated

/-- An allocated header lists sectors that were free. -/
theorem exists_lists_of_allocate (small : map.sectorCount ≤ Word.sectorLimit)
    (allocated : before.allocate map size = .ok (header, map')) :
    ∃ taken, map.Takes taken map' ∧ header.Lists size taken := by
  rw [allocate_of_isEmpty (blocks_eq_nil_of_allocate allocated)] at allocated
  obtain ⟨enough, rfl, rfl⟩ := allocate_empty_ok allocated
  have takes := map.takes_fill (Extent.span size)
  refine ⟨_, takes, lists_deal (length_free_take enough) ?_⟩
  intro s hs
  exact Nat.lt_of_lt_of_le (takes.free s hs).1 small

namespace Lists

variable (lists : header.Lists size taken)
include lists

theorem mem_of_mem_data {s : Nat} (hs : s ∈ header.dataSectors) : s ∈ taken := by
  obtain ⟨stored, block, mem⟩ := List.mem_flatMap.mp hs
  rw [← lists.order]
  exact List.mem_flatMap.mpr ⟨stored, block, List.mem_cons_of_mem _ mem⟩

theorem reaches : header.Reaches 0 header.dataSectors := by
  intro i s here
  have inside : i < header.sectorCount := by
    rw [← lists.length_data]
    exact (List.getElem?_eq_some_iff.mp here).1
  obtain ⟨t, there, found⟩ := lists.sectorAt (i * sectorSize)
    (Nat.mul_lt_mul_of_pos_right inside (by decide))
  rw [Nat.mul_div_cancel i (by decide)] at there
  rw [Nat.zero_add, found, Option.some.inj (here.symm.trans there)]

/-- Reading the whole file goes along the data sectors. -/
theorem readAt_eq_readAlong {file : File} (same : file.header = header) {count : Nat}
    (whole : size ≤ count) : file.readAt 0 count = File.readAlong header.dataSectors size := by
  subst same
  have clipped : file.clip 0 count = size := by
    rw [File.clip_eq_min, Nat.sub_zero]
    exact (Nat.min_eq_right (lists.length_eq.trans_le whole)).trans lists.length_eq
  rw [File.readAt, clipped, ← Nat.zero_mul sectorSize]
  apply File.readPieces_eq_readAlong lists.reaches
  rw [lists.length_data, lists.sectorCount_eq]

/-- On every disk the text and the bytes are read alike. -/
theorem echoes_contents {file : File} (same : file.header = header) {count : Nat}
    (whole : size ≤ count) :
    Echoes (fun text bytes => bytes.length = size ∧
        text = String.join ((rows header.sectorCount bytes).map renderLine))
      header.contents (file.readAt 0 count) := by
  have covers : header.dataSectors.length = Size.units size sectorSize := by
    rw [lists.length_data, lists.sectorCount_eq]
  have rendered := echoes_contentLines covers
  rw [lists.length_data] at rendered
  rw [lists.readAt_eq_readAlong same whole, contents, lists.length_eq,
    ← bind_pure (File.readAlong _ _)]
  refine rendered.step fun lines bytes ends => .done ⟨ends.1, ?_⟩
  rw [ends.2]

/-- Where reading ends well, so does rendering, with the text of these bytes. -/
theorem contents_of_readAt {file : File} (same : file.header = header) {count : Nat}
    (whole : size ≤ count) {disk disk' : Disk} {bytes : List UInt8}
    (reads : file.readAt 0 count disk = .ok bytes disk') :
    ∃ text, header.contents disk = .ok text disk' ∧ bytes.length = size ∧
      text = String.join ((rows header.sectorCount bytes).map renderLine) := by
  rcases lists.echoes_contents same whole disk with
    ⟨text, bytes', middle, renders, reads', length, shown⟩ | ⟨e, middle, -, fails⟩
  · cases reads'.symm.trans reads
    exact ⟨text, renders, length, shown⟩
  · cases fails.symm.trans reads

end Lists

/-- The text of an allocated header has a line for each of its data sectors. Line `i` shows, byte by
byte, what `File.readAt` reads at the places of sector `i` in the file, and both ask for the data
sectors once each, in file order. At the end no byte of the file remains to be shown. -/
theorem contents_rendered (small : map.sectorCount ≤ Word.sectorLimit)
    (allocated : before.allocate map size = .ok (header, map')) {disk : Disk}
    (willing : disk.Willing) (room : map.sectorCount ≤ disk.sectorCount)
    (covered : map.sectorCount ≤ disk.image.sectors.size) {file : File}
    (same : file.header = header) {buffer : List UInt8} (whole : size ≤ buffer.length) :
    ∃ text bytes lines,
      let seen := disk.asked header.dataSectors
      header.contents disk = .ok text seen ∧
      header.contentsInPlace disk = .ok (some (text, 0)) seen ∧
      file.readAt 0 buffer.length disk = .ok bytes seen ∧
      file.readInto 0 buffer disk = .ok (size, bytes ++ buffer.drop size) seen ∧
      bytes = (disk.store.bytes header.dataSectors).take size ∧ bytes.length = size ∧
      text.toList.splitOn '\n' = lines ++ [[]] ∧ lines.length = header.sectorCount ∧
      (∀ line ∈ lines, '\n' ∉ line) ∧
      ∀ i line, lines[i]? = some line ↔ i < header.sectorCount ∧
        Text.Renders (bytes.extract (sectorSize * i) (min (sectorSize * (i + 1)) size)) line := by
  obtain ⟨taken, takes, lists⟩ := exists_lists_of_allocate small allocated
  have readable : ∀ s ∈ header.dataSectors, disk.Readable s := by
    intro s hs
    have inside := (takes.free s (lists.mem_of_mem_data hs)).1
    exact Disk.readable_of_lt (by omega) (by omega) (by omega)
  have reads : file.readAt 0 buffer.length disk =
      .ok ((disk.store.bytes header.dataSectors).take size) (disk.asked header.dataSectors) := by
    rw [lists.readAt_eq_readAlong same whole]
    exact File.readAlong_of_reads (willing.reads readable) size
  obtain ⟨text, renders, length, rfl⟩ := lists.contents_of_readAt same whole reads
  have all : header.length - header.dataSectors.length * sectorSize = 0 := by
    rw [lists.length_eq, lists.length_data, lists.sectorCount_eq]
    exact Nat.sub_eq_zero_of_le (Size.le_units_mul (by decide) size)
  refine ⟨_, _, _, renders, ?_, reads, ?_, rfl, length, splitOn_join _ _, ?_, ?_, ?_⟩
  · rw [contentsInPlace_eq, Does.map_of_ok _ renders, all]
  · have clipped : file.clip 0 buffer.length = size := by
      rw [← file.yields_readAt 0 buffer.length disk _ _ reads, length]
    have filled (bytes : List UInt8) :
        overlay buffer 0 bytes = bytes ++ buffer.drop bytes.length := by
      simp [overlay]
    rw [File.readInto_eq, Does.map_of_ok _ reads, clipped, filled, length]
  · simp [lines, rows]
  · exact fun line mem => newline_notMem_lines mem
  · intro i line
    rw [getElem?_lines, length]

/-- Two free sectors between used ones, and forty behind them. -/
def holed : FreeMap := ⟨#[true, true, false, false, true] ++ .replicate 40 false⟩

/-- A disk with the same bytes at the front of every sector. -/
def speckled : Disk := .holding 45 fun _ => .ofBytes [0x0a, 0xff, 0x68, 0x7e]

/-- The last of 32 lines, whose sector the second index block lists, shows three bytes. -/
theorem contents_rendered_holed : ∃ header map text seen lines,
    empty.allocate holed 3971 = .ok (header, map) ∧ header.contents speckled = .ok text seen ∧
    text.toList.splitOn '\n' = lines ++ [[]] ∧ lines.length = 32 ∧
    lines[31]? = some ['\\', 'a', '\\', 'f', 'f', 'h'] := by
  have allocated := @allocate_empty holed 3971 (by decide)
  rw [if_neg (by decide)] at allocated
  have willing : speckled.Willing := ⟨fun _ _ => rfl, fun _ _ => rfl⟩
  have sectors : speckled.image.sectors.size = 45 := Array.size_ofFn
  have covered : holed.sectorCount ≤ speckled.image.sectors.size := sectors ▸ by decide
  have whole : (List.replicate 3971 (0 : UInt8)).length = 3971 := List.length_replicate
  have same (header : Header) : (File.mk 0 header 0).header = header := rfl
  obtain ⟨text, bytes, lines, renders, -, -, -, rfl, -, split, length, -, line⟩ :=
    contents_rendered (by decide) allocated willing (by decide) covered (same _) whole.ge
  obtain ⟨taken, takes, lists⟩ := exists_lists_of_allocate (by decide) allocated
  refine ⟨_, _, text, _, lines, allocated, renders, split, length, (line 31 _).mpr ⟨by decide, ?_⟩⟩
  generalize Header.mk _ _ _ = header at *
  have last : 31 < header.dataSectors.length := by
    rw [lists.length_data, lists.sectorCount_eq]
    decide
  have inside : header.dataSectors[31] < 45 :=
    (takes.free _ (lists.mem_of_mem_data (List.getElem_mem last))).1
  have row : (Sector.ofBytes [0x0a, 0xff, 0x68, 0x7e]).bytes =
      ((speckled.store.bytes header.dataSectors).drop (31 * sectorSize)).take sectorSize := by
    rw [← Store.bytes_eq_of_getElem? (List.getElem?_eq_getElem last), speckled,
      Disk.store_holding inside]
  have shown :=
    calc ((speckled.store.bytes header.dataSectors).take 3971).extract (sectorSize * 31)
          (min (sectorSize * (31 + 1)) 3971)
      _ = ((speckled.store.bytes header.dataSectors).drop (31 * sectorSize)).take 3 := by
        rw [List.extract_eq_take_drop, List.drop_take, List.take_take]
        rfl
      _ = (Sector.ofBytes [0x0a, 0xff, 0x68, 0x7e]).bytes.take 3 := by
        rw [row, List.take_take]
        rfl
      _ = [0x0a, 0xff, 0x68] := by decide
  rw [shown]
  exact Text.renders_iff.mpr (by decide)

end Header

end SectorFS
