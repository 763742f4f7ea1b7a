import PacketBus.Link
import PacketBus.Proofs.Packet.Soundness
import PacketBus.Proofs.Port.Record
import PacketBus.Proofs.Stream.RoundTrip

/-! What a link has heard.
The packets it has received are those that the bytes it has read complete, whatever else the port
answered in between.
-/

namespace PacketBus.Link

variable {P ε : Type} [Port P ε]

/-- What a read of a link can come to, with the packet behind it. -/
inductive Reads (link : Link P) : Except (Failure ε) (Option FrameStatus) → Packet → Prop
  | failed {fault} (answered : (Port.read link.port).1 = .error fault)
    : link.Reads (.error (.port fault)) link.incoming
  | nothing (answered : (Port.read link.port).1 = .ok none)
    : link.Reads (.ok none) link.incoming
  | unfinished {byte incoming} (answered : (Port.read link.port).1 = .ok (some byte))
    (received : link.incoming.receive byte = (.ok .unfinished, incoming))
    : link.Reads (.ok (some .unfinished)) incoming
  | lost {byte e incoming} (answered : (Port.read link.port).1 = .ok (some byte))
    (received : link.incoming.receive byte = (.error e, incoming))
    (harmless : e.losesFrameOnly = true)
    : link.Reads (.error (.packet e)) incoming
  | complete {byte incoming} (answered : (Port.read link.port).1 = .ok (some byte))
    (received : link.incoming.receive byte = (.ok .complete, incoming)) (long : 2 ≤ incoming.size)
    : link.Reads (.ok (some .complete)) incoming

/-- A read changes the port and the packet alone, by what the byte brings if there is one. -/
theorem receive_reads (link : Link P)
    : ∃ result incoming,
        link.receive = (result, { link with port := (Port.read link.port).2, incoming })
        ∧ link.Reads result incoming := by
  rcases answered : Port.read link.port with ⟨fault | _ | byte, port⟩
  · refine ⟨.error (.port fault), link.incoming, ?_, .failed (by rw [answered])⟩
    simp [receive, answered]
  · refine ⟨.ok none, link.incoming, ?_, .nothing (by rw [answered])⟩
    simp [receive, answered]
  · have answer : (Port.read link.port).1 = .ok (some byte) := by rw [answered]
    have brings := link.incoming.brings_receive byte
    rcases received : link.incoming.receive byte with ⟨result, incoming⟩
    rw [received] at brings
    cases brings with
    | unfinished =>
        refine ⟨.ok (some .unfinished), incoming, ?_, .unfinished answer received⟩
        simp [receive, answered, received]
    | @lost e _ harmless =>
        refine ⟨.error (.packet e), incoming, ?_, .lost answer received harmless⟩
        simp [receive, answered, received]
    | complete between verified long =>
        refine ⟨.ok (some .complete), incoming, ?_, .complete answer received long⟩
        simp [receive, answered, received]

/-- What was sound stays sound, whatever a read brings. -/
theorem Reads.isSound {link : Link P} {result : Except (Failure ε) (Option FrameStatus)}
    {incoming : Packet} (h : link.Reads result incoming) (sound : link.incoming.IsSound)
    : incoming.IsSound := by
  have next : ∀ byte outcome, link.incoming.receive byte = (outcome, incoming)
      → incoming.IsSound := by
    intro byte outcome received
    have kept := sound.receive byte
    rwa [received] at kept
  cases h with
  | failed answered => exact sound
  | nothing answered => exact sound
  | unfinished answered received => exact next _ _ received
  | lost answered received harmless => exact next _ _ received
  | complete answered received long => exact next _ _ received

/-- The packet that the next read completes. -/
def completes? (link : Link P) : Option Packet :=
  match link.receive with
  | (.ok (some .complete), after) => some after.incoming
  | _ => none

variable {link : Link P}

theorem completes?_of_complete {after : Link P}
    (received : link.receive = (.ok (some .complete), after))
    : link.completes? = some after.incoming := by
  rw [completes?, received]

theorem incoming_of_completes? {request : Packet} (completed : link.completes? = some request)
    : link.receive.2.incoming = request := by
  rw [completes?] at completed
  split at completed
  · next received =>
      rw [received]
      exact Option.some.inj completed
  · cases completed

theorem completes?_of_incomplete {result : Except (Failure ε) (Option FrameStatus)} {after : Link P}
    (received : link.receive = (result, after)) (incomplete : result ≠ .ok (some .complete))
    : link.completes? = none := by
  rw [completes?, received]
  split
  · next complete => exact absurd (congrArg Prod.fst complete) incomplete
  · rfl

/-- A read takes the byte that it brings into the packet, and completes the packet exactly if the
byte does; by what the port answers. -/
theorem receive_heard {link : Link (RecordedPort P ε)} {incoming : Packet}
    (heard : link.incoming = incoming.fed link.port.delivered)
    : link.receive.2.incoming = incoming.fed link.receive.2.port.delivered
      ∧ Packet.completed (incoming.trace link.receive.2.port.delivered)
        = Packet.completed (incoming.trace link.port.delivered) ++ link.completes?.toList
      ∧ link.receive.2.port.accepted = link.port.accepted := by
  obtain ⟨⟨inner, calls⟩, current, held, debug⟩ := link
  simp only [RecordedPort.delivered] at heard
  subst heard
  rcases answered : Port.read inner with ⟨fault | _ | byte, port⟩
  · simp [receive, completes?, Port.read, answered, RecordedPort.delivered, RecordedPort.accepted,
      List.filterMap_cons]
  · simp [receive, completes?, Port.read, answered, RecordedPort.delivered, RecordedPort.accepted,
      List.filterMap_cons]
  · rcases taken : (incoming.fed (calls.filterMap Port.Call.delivered?)).receive byte with
      ⟨failure | _ | _, next⟩
    all_goals
      simp [receive, completes?, Port.read, answered, taken, RecordedPort.delivered,
        RecordedPort.accepted, List.filterMap_cons, Packet.fed_append, Packet.trace_append,
        Packet.trace, Packet.completed]

end PacketBus.Link
