import Mathlib.Data.List.TakeWhile
import PacketBus.Proofs.Reception.Content

/-! The grammar of what a receiver takes.
A frame is an opening byte of any value, delimiters, and content up to a delimiter that is not
escaped. Receiving byte by byte comes to the same as reading the whole run by this grammar.
-/

namespace PacketBus.Packet

open PacketBus.Frame (delimiter escapeMark Item)

/-- What becomes of a run of bytes: how the frame stands, how many bytes of the run decide it, and
what is stored. -/
structure Parse where
  result : Except Failure FrameStatus
  used : Nat
  stored : List UInt8

/-- Reads the content of a frame into `capacity` bytes. -/
def parseContent (capacity : Nat) (bytes : List UInt8) : Parse :=
  let items := (Item.read bytes).1
  let values := items.map Item.value
  if capacity < items.length then
    ⟨.error .overflow, (Item.wires (items.take (capacity + 1))).length, values.take capacity⟩
  else if (Item.read bytes).2.head? = some delimiter then
    ⟨verdict values, (Item.wires items).length + 1, values⟩
  else ⟨.ok .unfinished, bytes.length, values⟩

/-- Reads a frame into `capacity` bytes. -/
def parse (capacity : Nat) : List UInt8 → Parse
  | [] => ⟨.ok .unfinished, 0, []⟩
  | _ :: rest =>
      let gap := rest.takeWhile (· = delimiter)
      let content := parseContent capacity (rest.dropWhile (· = delimiter))
      { content with used := 1 + gap.length + content.used }

variable {p : Packet} {n : Nat}

/-- More items than there is room for: the first one too many decides. -/
theorem Collects.receiveFrame_overflow {bytes : List UInt8} (h : p.Collects n [])
    (large : n < (Item.read bytes).1.length)
    : ∃ q, p.receiveFrame bytes
          = (⟨.error .overflow, (Item.wires ((Item.read bytes).1.take (n + 1))).length⟩, q)
        ∧ q.bytes = ((Item.read bytes).1.map Item.value).take n := by
  have whole := Item.wires_read bytes
  generalize (Item.read bytes).1 = items at large whole ⊢
  generalize (Item.read bytes).2 = left at whole
  have size : (items.take n).length = n := by
    rw [List.length_take]
    omega
  have front : items.take (n + 1) = items.take n ++ [items[n]] :=
    List.take_succ_eq_append_getElem large
  obtain ⟨q, ended, between, holds⟩ :=
    h.ends_items (items.take n) items[n] (by simp [size])
  refine ⟨q, ?_, by rw [holds.bytes, List.nil_append, List.map_take]⟩
  have split : bytes
      = (Item.wires (items.take n) ++ items[n].wire)
        ++ (Item.wires (items.drop (n + 1)) ++ left) :=
    calc
      bytes = Item.wires (items.take (n + 1) ++ items.drop (n + 1)) ++ left := by
        rw [List.take_append_drop, whole]
      _ = _ := by
        rw [front]
        simp only [Item.wires_append, Item.wires_cons, Item.wires_nil, List.append_nil,
          List.append_assoc]
  rw [split, ended.receiveFrame (by simp), front]
  simp only [Item.wires_append, Item.wires_cons, Item.wires_nil, List.append_nil]

/-- No more items than there is room for: the frame is judged if it is closed, and goes on if the
run ends first, be it behind an escape mark.
-/
theorem Collects.receiveFrame_fitting {bytes : List UInt8} (h : p.Collects n [])
    (content : bytes.head? ≠ some delimiter) (fits : (Item.read bytes).1.length ≤ n)
    : ∃ q, p.receiveFrame bytes
          = (if (Item.read bytes).2.head? = some delimiter then
              ⟨verdict ((Item.read bytes).1.map Item.value),
                (Item.wires (Item.read bytes).1).length + 1⟩
            else ⟨.ok .unfinished, bytes.length⟩, q)
        ∧ q.bytes = (Item.read bytes).1.map Item.value := by
  have whole := Item.wires_read bytes
  have stops := Item.read_stops bytes
  generalize (Item.read bytes).1 = items at fits whole ⊢
  generalize (Item.read bytes).2 = left at stops whole ⊢
  obtain ⟨q, absorbed, collects⟩ := h.absorbs_items items (by simpa using fits)
  rcases stops with ⟨rest, rfl⟩ | rfl | rfl
  · -- A delimiter closes the frame, which is not empty since no delimiter came first.
    have nonempty : [] ++ items.map Item.value ≠ [] := by
      intro empty
      obtain rfl : items = [] := by simpa using empty
      exact content (by rw [← whole]; rfl)
    obtain ⟨r, closed, between, holds, _⟩ := collects.receive_delimiter nonempty
    refine ⟨r, ?_, holds.bytes⟩
    have ended := Ends.intro _ _ _ absorbed closed
    rw [← whole, ← List.singleton_append, ← List.append_assoc, ended.receiveFrame (verdict_ne_unfinished _)]
    simp
  · refine ⟨q, ?_, collects.bytes⟩
    rw [← whole, List.append_nil, absorbed.receiveFrame]
    simp
  · -- The mark is taken but belongs to no item yet.
    refine ⟨{ q with receiver := .escaped }, ?_, collects.bytes⟩
    have marked : Absorbs p (Item.wires items ++ [escapeMark]) { q with receiver := .escaped } :=
      absorbed.trans (.single (receive_escapeMark_of_inside collects.inside) rfl)
    rw [← whole, marked.receiveFrame]
    simp [escapeMark, delimiter]

theorem Collects.receiveFrame_eq_parseContent {bytes : List UInt8} (h : p.Collects n [])
    (content : bytes.head? ≠ some delimiter)
    : ∃ q, p.receiveFrame bytes
          = (⟨(parseContent n bytes).result, (parseContent n bytes).used⟩, q)
        ∧ q.bytes = (parseContent n bytes).stored := by
  unfold parseContent
  by_cases large : n < (Item.read bytes).1.length
  · simpa only [large, if_true] using h.receiveFrame_overflow large
  · obtain ⟨q, received, stored⟩ := h.receiveFrame_fitting content (Nat.le_of_not_lt large)
    refine ⟨q, ?_, ?_⟩
    · rw [received]
      simp only [large, if_false]
      split
      · rfl
      · rfl
    · simp only [large, if_false]
      split
      · exact stored
      · exact stored

/-- A packet that is not inside a frame receives every run of bytes as the grammar reads it, into
whatever storage: the same result after the same number of bytes, with the same bytes stored. -/
theorem receiveFrame_eq_parse (p : Packet) (ready : p.isMidFrame = false) (bytes : List UInt8)
    : (p.receiveFrame bytes).1
        = ⟨(parse p.capacity bytes).result, (parse p.capacity bytes).used⟩
      ∧ (bytes ≠ [] → (p.receiveFrame bytes).2.bytes = (parse p.capacity bytes).stored) := by
  have between : p.receiver = .between := by simpa [isMidFrame] using ready
  cases bytes with
  | nil =>
      refine ⟨rfl, ?_⟩
      intro nonempty
      exact absurd rfl nonempty
  | cons opening rest =>
      obtain ⟨q, opened, collects⟩ := receive_of_between between opening
      have delimiters : ∀ byte ∈ rest.takeWhile (· = delimiter), byte = delimiter := by
        intro byte member
        simpa using List.mem_takeWhile_imp member
      have skipped : Absorbs p (opening :: rest.takeWhile (· = delimiter)) q :=
        .cons opened rfl (collects.absorbs_delimiters delimiters)
      have content : (rest.dropWhile (· = delimiter)).head? ≠ some delimiter := by
        intro found
        have ordinary := List.head?_dropWhile_not (· = delimiter) rest
        rw [found] at ordinary
        simp at ordinary
      obtain ⟨r, received, stored⟩ := collects.receiveFrame_eq_parseContent content
      have split : opening :: rest
          = (opening :: rest.takeWhile (· = delimiter)) ++ rest.dropWhile (· = delimiter) := by
        rw [List.cons_append, List.takeWhile_append_dropWhile]
      have whole : p.receiveFrame (opening :: rest)
          = (⟨(parse p.capacity (opening :: rest)).result,
              (parse p.capacity (opening :: rest)).used⟩, r) := by
        rw [split, skipped.receiveFrame_append, received, ← split]
        simp only [parse, List.length_cons, Nat.add_comm 1]
      rw [whole]
      exact ⟨rfl, fun _ => stored⟩

/-- An opening byte that is no delimiter, one delimiter, an escaped delimiter and an escaped mark
before a byte for which two bytes of storage have no room. -/
theorem receiveFrame_escapes_overflow
    : (ofStorage [0xAA, 0xBB]).isMidFrame = false
      ∧ ((ofStorage [0xAA, 0xBB]).receiveFrame
            [0x55, 0xC0, 0xDB, 0xC0, 0xDB, 0xDD, 0xDB, 0x01, 0xC0]).1
          = ⟨.error .overflow, 8⟩
      ∧ ((ofStorage [0xAA, 0xBB]).receiveFrame
            [0x55, 0xC0, 0xDB, 0xC0, 0xDB, 0xDD, 0xDB, 0x01, 0xC0]).2.bytes
          = [0xC0, 0xDB] := by
  obtain ⟨received, stored⟩ := receiveFrame_eq_parse (ofStorage [0xAA, 0xBB]) rfl
    [0x55, 0xC0, 0xDB, 0xC0, 0xDB, 0xDD, 0xDB, 0x01, 0xC0]
  exact ⟨rfl, received.trans rfl, (stored (by simp)).trans rfl⟩

end PacketBus.Packet
