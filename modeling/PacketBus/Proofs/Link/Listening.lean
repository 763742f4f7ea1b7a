import PacketBus.Proofs.Device.Polling
import PacketBus.Proofs.Link.Writing
import PacketBus.Proofs.Port.Schedule
import PacketBus.Proofs.Reception.Chunks

/-! A link that listens to its port.
A read that brings no byte, for lack of one or by a fault, leaves no mark, so that the link receives
what the bytes come to that the port delivers, whenever it delivers them.
-/

namespace PacketBus.Link

open Packet (Reception frameEnds taken)

variable {P ε : Type} [Port P ε]

/-- What each of a number of reads comes to, with the link behind it. -/
def listened (link : Link P) : Nat → List (Except (Failure ε) (Option FrameStatus) × Link P)
  | 0 => []
  | count + 1 => link.receive :: link.receive.2.listened count

/-- The link behind a number of reads. -/
def behindReads (link : Link P) : Nat → Link P
  | 0 => link
  | count + 1 => link.receive.2.behindReads count

omit [Port P ε] in
/-- A read as a call to the packet, which takes no byte if the read brings none. -/
def asCall : Except (Failure ε) (Option FrameStatus) × Link P → Reception × Packet
  | (.ok (some status), link) => (⟨.ok status, 1⟩, link.incoming)
  | (.error (.packet e), link) => (⟨.error e, 1⟩, link.incoming)
  | (.ok none, link) | (.error (.port _), link) => (⟨.ok .unfinished, 0⟩, link.incoming)

omit [Port P ε] in
theorem asCall_snd (turn : Except (Failure ε) (Option FrameStatus) × Link P)
    : (asCall turn).2 = turn.2.incoming := by
  rcases turn with ⟨(e | fault) | _ | status, link⟩
  · rfl
  · rfl
  · rfl
  · rfl

theorem port_receive (link : Link P)
    : link.receive.2.port = (Port.read link.port).2 := by
  obtain ⟨incoming, read⟩ := link.receive_snd
  rw [read]

/-- A read without a byte changes the port alone. -/
theorem receive_of_nothing {link : Link P}
    (nothing : Port.delivered [(Port.read link.port).1] = [])
    : link.receive.2 = { link with port := (Port.read link.port).2 }
      ∧ asCall link.receive = (⟨.ok .unfinished, 0⟩, link.incoming) := by
  rcases answered : Port.read link.port with ⟨fault | _ | byte, port⟩
  · simp [receive, answered, asCall]
  · simp [receive, answered, asCall]
  · simp [answered, Port.delivered] at nothing

theorem asCall_of_byte {link : Link P} {byte : UInt8}
    (answered : (Port.read link.port).1 = .ok (some byte))
    : asCall link.receive = (⟨(link.incoming.receive byte).1, 1⟩, (link.incoming.receive byte).2) := by
  rcases read : Port.read link.port with ⟨answer, port⟩
  obtain rfl : answer = .ok (some byte) := by simpa [read] using answered
  rcases received : link.incoming.receive byte with ⟨failure | status, incoming⟩
  · simp [receive, read, received, asCall]
  · simp [receive, read, received, asCall]

/-- A read covers the byte that it brings, if it brings one. -/
theorem covers_receive (link : Link P)
    : link.incoming.Covers [asCall link.receive] (Port.delivered [(Port.read link.port).1]) 1 := by
  rcases Port.delivered_cons (Port.read link.port).1 [] with ⟨nothing, _⟩ | ⟨byte, answered, one⟩
  · rw [nothing, (receive_of_nothing nothing).2]
    exact ⟨fun _ => rfl, rfl, rfl, Nat.le_refl 1⟩
  · rw [asCall_of_byte answered, answered]
    exact ⟨fun _ => rfl, rfl, rfl, Nat.le_add_left 1 _⟩

/-- A number of reads covers the bytes that the port delivers, by induction on the reads. -/
theorem covers_listened (link : Link P) (count : Nat)
    : link.incoming.Covers ((link.listened count).map asCall)
        (Port.delivered (Port.reads link.port count).1) count := by
  induction count generalizing link with
  | zero => exact ⟨fun _ => rfl, rfl, rfl, Nat.le_refl 0⟩
  | succ count ih =>
      have first := link.covers_receive
      have later := ih link.receive.2
      rw [port_receive, ← asCall_snd, show (asCall link.receive).2 = _ from first.behind] at later
      have all := first.append later
      rw [Nat.add_comm, Port.delivered, Port.delivered, ← List.filterMap_append] at all
      exact all

/-- By induction on the reads. -/
theorem behindReads_eq (link : Link P) (count : Nat)
    : (link.behindReads count).incoming = link.incoming.behind ((link.listened count).map asCall)
      ∧ (link.behindReads count).held = link.held := by
  induction count generalizing link with
  | zero => exact ⟨rfl, rfl⟩
  | succ count ih =>
      obtain ⟨packet, held⟩ := ih link.receive.2
      obtain ⟨incoming, read⟩ := link.receive_snd
      refine ⟨?_, held.trans (by rw [read])⟩
      rw [← asCall_snd] at packet
      exact packet

-----------------------------------------------------------------------------------------
-- A stream, however it comes
-----------------------------------------------------------------------------------------

/-- The same frames end in a stream, at the same places and with the same packet behind each, and
the same packet is left behind it, whether its bytes come in chunks, one by one, or from a port that
has nothing to read or fails in between. The chunks are used up, each byte once, in few calls; a
read without a byte changes neither the packet nor the byte held for writing. -/
theorem frames_end_however_the_stream_comes (p : Packet) (chunks : List (List UInt8))
    : let stream := chunks.flatten
      let calls := p.receiveChunks chunks
      frameEnds 0 calls = frameEnds 0 (p.receiveEach stream)
        ∧ p.behind calls = p.fed stream
        ∧ taken calls = stream.length
        ∧ calls.length ≤ stream.length + chunks.length
        ∧ (∀ (link : Link P) (count : Nat), link.incoming = p
            → Port.delivered (Port.reads link.port count).1 = stream
            → frameEnds 0 ((link.listened count).map asCall) = frameEnds 0 calls
              ∧ (link.behindReads count).incoming = p.behind calls
              ∧ (link.behindReads count).held = link.held)
        ∧ ∀ link : Link P, Port.delivered [(Port.read link.port).1] = []
            → link.receive.2 = { link with port := (Port.read link.port).2 } := by
  intro stream calls
  have whole : p.Covers calls stream chunks.length := p.covers_receiveChunks chunks
  refine ⟨whole.frameEnds 0, whole.behind, whole.taken, whole.count, ?_, ?_⟩
  · rintro link count rfl delivered
    have heard := link.covers_listened count
    obtain ⟨packet, held⟩ := link.behindReads_eq count
    rw [delivered] at heard
    refine ⟨?_, ?_, held⟩
    · rw [heard.frameEnds, whole.frameEnds]
    · rw [packet, heard.behind, whole.behind]
  · intro link nothing
    exact (receive_of_nothing nothing).1

/-- A packet that was left behind an escape mark takes the rest of a frame, and then one that ends
with its opening delimiter, in chunks that are cut behind each kind of byte; and so does a link that
holds a refused byte, whose port has gaps and faults. -/
theorem frames_end_however_the_stream_comes_with_gaps
    : let p : Packet := { storage := [0x01, 0x00, 0x00], size := 1, receiver := .escaped }
      let chunks : List (List UInt8) := [[], [0xDC], [], [0x5B, 0xC0, 0xC0], [0x55], [0xC0, 0xC0]]
      let gaps : List (Except Unit (Option UInt8)) := [.ok none, .error ()]
      let port : ScheduledPort Unit :=
        { reads := chunks.flatten.flatMap fun byte => gaps ++ [.ok (some byte)] }
      let link : Link (ScheduledPort Unit) :=
        { port, incoming := p, held := some ⟨0x2A, .unfinished⟩ }
      let ends := frameEnds 0 ((link.listened 21).map asCall)
      Port.delivered (Port.reads port 21).1 = chunks.flatten
      ∧ ends = frameEnds 0 (p.receiveEach chunks.flatten)
      ∧ ends.map (fun e => (e.place, e.result))
          = [(3, .ok .complete), (6, .error .tooShort)]
      ∧ (link.behindReads 21).incoming = p.fed chunks.flatten
      ∧ (link.behindReads 21).held = some ⟨0x2A, .unfinished⟩ := by
  intro p chunks gaps port link ends
  obtain ⟨same, final, _, _, listening, _⟩ :=
    frames_end_however_the_stream_comes (P := ScheduledPort Unit) p chunks
  have delivered : Port.delivered (Port.reads port 21).1 = chunks.flatten := by decide +kernel
  obtain ⟨heard, packet, held⟩ := listening link 21 rfl delivered
  have all : ends = frameEnds 0 (p.receiveEach chunks.flatten) := heard.trans same
  refine ⟨delivered, all, ?_, packet.trans final, held⟩
  rw [all]
  decide +kernel

end PacketBus.Link
