import Mathlib.Data.List.TakeWhile
import PacketBus.Proofs.Frame.Canonical
import PacketBus.Proofs.Packet.Soundness
import PacketBus.Proofs.Reception.Grammar
import PacketBus.Proofs.Reception.Overflow

/-! The frames that a receiver takes for one content.
Whatever completes a frame has a layout: an opening byte, delimiters, and the items of the content
up to the closing delimiter. Of the layouts of one content the canonical one is sent, and all the
others are different.
-/

namespace PacketBus

namespace Frame

/-- How a frame may come over the wire. -/
structure Layout where
  opening : UInt8
  /-- How many delimiters come between the opening byte and the content. -/
  gap : Nat
  items : List Item

namespace Layout

/-- The bytes that make up the frame. -/
def wire (l : Layout) : List UInt8 :=
  l.opening :: (List.replicate l.gap delimiter ++ Item.wires l.items) ++ [delimiter]

/-- The bytes that the frame stands for. -/
def content (l : Layout) : List UInt8 := l.items.map Item.value

theorem length_wire (l : Layout)
    : l.wire.length = 2 + l.gap + (Item.wires l.items).length := by
  simp only [wire, List.length_cons, List.length_append, List.length_replicate, List.length_nil]
  omega

/-- No layout of a content is shorter than the frame that is sent for it. -/
theorem length_enclosed_le (l : Layout)
    : (enclosed l.content).length ≤ l.wire.length := by
  have shorter := Item.length_stuff_le l.items
  rw [length_wire]
  simp only [enclosed, content, List.length_cons, List.length_append, List.length_nil]
  omega

/-- A layout is the frame that is sent for its content exactly if nothing of it is superfluous. -/
theorem enclosed_eq_wire_iff (l : Layout)
    : enclosed l.content = l.wire
      ↔ l.opening = delimiter ∧ l.gap = 0 ∧ ∀ item ∈ l.items, item.IsStandard := by
  constructor
  · intro same
    have gap : l.gap = 0 := by
      have shorter := Item.length_stuff_le l.items
      have sizes := congrArg List.length same
      rw [length_wire] at sizes
      simp only [enclosed, content, List.length_cons, List.length_append, List.length_nil] at sizes
      omega
    simp only [enclosed, wire, content, gap, List.replicate_zero, List.nil_append,
      List.cons_append, List.cons.injEq, List.append_cancel_right_eq] at same
    exact ⟨same.1.symm, gap, (Item.wires_eq_stuff_iff l.items).mp same.2.symm⟩
  · rintro ⟨opening, gap, standard⟩
    rw [wire, opening, gap, (Item.wires_eq_stuff_iff l.items).mpr standard]
    rfl

/-- What is read of a run that begins with a frame tells whether the frame is canonical. -/
theorem isCanonical_iff (l : Layout) (nonempty : l.items ≠ []) (rest : List UInt8)
    : IsCanonical (l.wire ++ rest)
      ↔ l.opening = delimiter ∧ l.gap = 0 ∧ ∀ item ∈ l.items, item.IsStandard := by
  have opened : (l.wire ++ rest).head? = some l.opening := rfl
  have behind : (l.wire ++ rest).drop 1
      = List.replicate l.gap delimiter ++ (Item.wires l.items ++ delimiter :: rest) := by
    simp [wire]
  cases gap : l.gap with
  | zero =>
      rw [gap, List.replicate_zero, List.nil_append] at behind
      have begins : (Item.wires l.items ++ delimiter :: rest).head? ≠ some delimiter := by
        obtain ⟨first, others, split⟩ := List.exists_cons_of_ne_nil nonempty
        have ordinary := Item.head?_wires_ne l.items
        rw [split, Item.wires_cons] at ordinary ⊢
        rw [List.append_assoc]
        cases first with
        | plain byte _ => exact ordinary
        | escaped byte => exact ordinary
      constructor
      · rintro ⟨opening, _, standard⟩
        rw [behind, Item.read_wires] at standard
        exact ⟨Option.some.inj (opened.symm.trans opening), rfl, standard⟩
      · rintro ⟨opening, _, standard⟩
        refine ⟨opened.trans (congrArg some opening), ?_, ?_⟩
        · rwa [behind]
        · rwa [behind, Item.read_wires]
  | succ more =>
      -- The delimiter behind the opening byte is no content.
      rw [gap, List.replicate_succ, List.cons_append] at behind
      constructor
      · intro canonical
        exact absurd (by rw [behind]; rfl) canonical.content
      · rintro ⟨_, none, _⟩
        cases none

end Layout

end Frame

namespace Packet

open PacketBus.Frame (delimiter Item Layout)

variable {p q : Packet} {n : Nat} {content : List UInt8}

-----------------------------------------------------------------------------------------
-- What is held of content that was found right
-----------------------------------------------------------------------------------------

/-- What a packet holds lies within its storage. -/
theorem Holds.size_le (h : p.Holds n content)
    : p.size ≤ p.capacity := by
  have length : p.bytes.length = p.size := by rw [h.bytes, h.size]
  rw [Packet.bytes, List.length_take] at length
  simp only [capacity]
  omega

/-- What stands before the last byte that a verified packet holds is its body. -/
theorem Holds.body_eq {front : List UInt8} {last : UInt8} (h : p.Holds n (front ++ [last]))
    (verified : p.verified = true)
    : p.body = front := by
  rw [body, bodySize, if_pos verified]
  exact h.closing.2

/-- Content that was found right is a body and its checksum. -/
theorem Holds.body_of_complete (h : p.Holds n content) (right : verdict content = .ok .complete)
    (verified : p.verified = true)
    : p.body ≠ [] ∧ p.bytes = p.body ++ [Checksum.ofBytes p.body]
      ∧ p.checksum? = some (Checksum.ofBytes p.body) := by
  obtain ⟨long, empty⟩ := (verdict_eq_complete_iff content).mp right
  rw [← h.size] at long
  have sound : p.IsSound := ⟨h.size_le, fun _ => long⟩
  obtain ⟨_, held, reported⟩ := sound.bytes_of_verified verified
  have last : p.storage.getD (p.size - 1) 0 = Checksum.ofBytes p.body := by
    rw [← h.bytes, held, Checksum.ofBytes_append_eq_zero_iff] at empty
    exact empty
  rw [last] at held reported
  refine ⟨?_, held, reported⟩
  rw [ne_eq, sound.body_eq_nil_iff]
  omega

-----------------------------------------------------------------------------------------
-- The layout of a frame that was completed
-----------------------------------------------------------------------------------------

/-- Content that is completed had room, and a delimiter behind it. -/
theorem Collects.closed_of_complete {bytes : List UInt8} (h : p.Collects n [])
    (begins : bytes.head? ≠ some delimiter)
    (completed : (p.receiveFrame bytes).1.result = .ok .complete)
    : (Item.read bytes).1.length ≤ n ∧ ∃ rest, (Item.read bytes).2 = delimiter :: rest := by
  by_cases large : n < (Item.read bytes).1.length
  · obtain ⟨r, received, _⟩ := h.receiveFrame_overflow large
    rw [received] at completed
    cases completed
  · have fits := Nat.le_of_not_lt large
    refine ⟨fits, ?_⟩
    obtain ⟨r, received, _⟩ := h.receiveFrame_fitting begins fits
    rw [received] at completed
    rcases Item.read_stops bytes with closed | ended | ended
    · exact closed
    · simp [ended] at completed
    · simp [ended, Frame.escapeMark, delimiter] at completed

/-- A layout whose content fits is judged with its last byte, by the content alone. -/
theorem ends_layout (between : p.receiver = .between) (l : Layout) (nonempty : l.items ≠ [])
    (fits : l.items.length ≤ p.capacity)
    : ∃ q, Ends p l.wire (verdict l.content) q ∧ q.Holds p.capacity l.content
        ∧ (verdict l.content = .ok .complete → q.verified = true) := by
  obtain ⟨opened, first, empty⟩ := receive_of_between between l.opening
  have skipped : Absorbs opened (List.replicate l.gap delimiter) opened :=
    empty.absorbs_delimiters fun byte member => List.eq_of_mem_replicate member
  obtain ⟨filled, absorbed, collects⟩ := empty.absorbs_items l.items (by simpa using fits)
  rw [List.nil_append] at collects
  obtain ⟨q, closed, _, holds, verified⟩ := collects.receive_delimiter (by simpa using nonempty)
  exact ⟨q, .intro _ delimiter filled (.cons first rfl (skipped.trans absorbed)) closed, holds,
    verified⟩

/-- Whatever completed a packet has a layout, of which the packet holds the content. -/
theorem exists_layout (between : p.receiver = .between) {input : List UInt8} {used : Nat}
    (received : p.receiveFrame input = (⟨.ok .complete, used⟩, q))
    : ∃ l : Layout, ∃ rest, input = l.wire ++ rest ∧ used = l.wire.length ∧ l.items ≠ []
        ∧ verdict l.content = .ok .complete ∧ q.Holds p.capacity l.content
        ∧ q.verified = true := by
  cases input with
  | nil => simp [receiveFrame] at received
  | cons opening rest =>
      -- The frame is read off the input: delimiters first, then items up to the closing delimiter.
      obtain ⟨opened, first, empty⟩ := receive_of_between between opening
      have gap : ∀ byte ∈ rest.takeWhile (· = delimiter), byte = delimiter := by
        intro byte member
        simpa using List.mem_takeWhile_imp member
      have content : (rest.dropWhile (· = delimiter)).head? ≠ some delimiter := by
        intro found
        have ordinary := List.head?_dropWhile_not (· = delimiter) rest
        rw [found] at ordinary
        simp at ordinary
      have skipped : Absorbs p (opening :: rest.takeWhile (· = delimiter)) opened :=
        .cons first rfl (empty.absorbs_delimiters gap)
      have split : opening :: rest
          = (opening :: rest.takeWhile (· = delimiter)) ++ rest.dropWhile (· = delimiter) := by
        rw [List.cons_append, List.takeWhile_append_dropWhile]
      have completed
          : (opened.receiveFrame (rest.dropWhile (· = delimiter))).1.result = .ok .complete := by
        rw [split, skipped.receiveFrame_append] at received
        exact congrArg (·.1.result) received
      obtain ⟨fits, left, closed⟩ := empty.closed_of_complete content completed
      have whole := Item.wires_read (rest.dropWhile (· = delimiter))
      rw [closed] at whole
      let l : Layout :=
        ⟨opening, (rest.takeWhile (· = delimiter)).length,
          (Item.read (rest.dropWhile (· = delimiter))).1⟩
      have laid : opening :: rest = l.wire ++ left := by
        rw [split, ← whole, Layout.wire, ← List.eq_replicate_of_mem gap]
        simp [l]
      have nonempty : l.items ≠ [] := by
        intro none
        rw [show (Item.read (rest.dropWhile (· = delimiter))).1 = [] from none] at whole
        exact content (by rw [← whole]; rfl)
      obtain ⟨r, ended, holds, verified⟩ := ends_layout between l nonempty fits
      have judged := ended.receiveFrame (verdict_ne_unfinished l.content) left
      rw [← laid, received] at judged
      obtain ⟨reception, rfl⟩ := Prod.mk.inj judged
      obtain ⟨result, used⟩ := Reception.mk.inj reception
      exact ⟨l, left, laid, used, nonempty, result.symm, holds, verified result.symm⟩

end Packet

end PacketBus
