import PacketBus.Proofs.Device.Timing
import PacketBus.Proofs.Packet.Appending

/-! Who chooses the command of an answer.
A responder that stores a command before it appends anything chooses it itself; one that only
appends what it was asked leaves the choice to its peer.
-/

namespace PacketBus

open PacketBus.Frame (wire)
open Packet (fitting)

/-- A responder that appends pieces of the payload of a request to its response, behind a command of
its own if it has one. -/
structure AppendingResponder (S : Type) where
  state : S
  /-- The command that it stores before it appends anything. -/
  command? : Option UInt8
  /-- The pieces in their order, whether the request is accepted, and the state afterwards. -/
  choose : S → (request response : Packet) → List (List UInt8) × Bool × S
  subset
    : ∀ state request response, ∀ piece ∈ (choose state request response).1,
        piece ⊆ request.payload

namespace AppendingResponder

variable {S : Type}

/-- What is done to a response in which pieces are put. -/
def operations (r : AppendingResponder S) (pieces : List (List UInt8)) : List Packet.Operation :=
  r.command?.toList.map .withCommand ++ pieces.map .append

instance : Responder (AppendingResponder S) where
  respond r request response :=
    let (pieces, accepted, state) := r.choose r.state request response
    ⟨accepted, response.after (r.operations pieces), { r with state }⟩

instance : LawfulResponder (AppendingResponder S) where
  isSound _ _ _ sound := sound.after _

/-- A responder without a command of its own that gives back the payload it is asked. -/
def returning : AppendingResponder Unit where
  state := ()
  command? := none
  choose _ request _ := ([request.payload], true, ())
  subset _ request _ piece listed := by
    obtain rfl := List.mem_singleton.mp listed
    exact List.Subset.refl _

theorem respond_returning (request response : Packet)
    : Responder.respond returning request response
      = ⟨true, (response.perform (.append request.payload)).2, returning⟩ :=
  rfl

end AppendingResponder

namespace Packet

/-- Nothing is held after a packet is cleared, and the room is what it was. -/
theorem body_clear (p : Packet)
    : p.clear.body = [] ∧ p.clear.capacity = p.capacity :=
  ⟨rfl, rfl⟩

/-- A command goes before the pieces like a piece of its own. -/
theorem body_after_operations {S : Type} (p : Packet) (r : AppendingResponder S)
    (pieces : List (List UInt8))
    : (p.clear.after (r.operations pieces)).body
      = fitting p.capacity (r.command?.toList.map ([·]) ++ pieces) := by
  have cleared := IsSound.clear p
  cases own : r.command? with
  | none =>
      simpa [AppendingResponder.operations, own, p.body_clear]
        using cleared.body_after_appends pieces
  | some command =>
      have builds := cleared.builds_withCommand command
      simp only [AppendingResponder.operations, own, Option.toList_some, List.map_cons,
        List.map_nil, List.singleton_append, after_cons, fitting, List.length_singleton]
      by_cases room : 1 ≤ p.capacity
      · obtain ⟨q, taken, rebuilt, sound, body⟩ := builds.built room
        have whole : q.capacity = p.capacity := rebuilt.room
        have alone : q.body = [command] := body
        rw [if_pos room, perform, taken]
        simpa [settle, alone, whole] using sound.body_after_appends pieces
      · rw [if_neg room, perform, builds.refused room]
        simpa [settle, p.body_clear] using cleared.body_after_appends pieces

end Packet

namespace AppendingResponder

variable {S : Type}

/-- The command of a response that holds anything is the responder's own, or else a byte of the
payload that was asked. -/
theorem command?_respond (r : AppendingResponder S) (request response : Packet)
    : let answer := Responder.respond r request response.clear
      answer.response.isEmpty = false
      → (∀ command, r.command? = some command → answer.response.command? = some command)
        ∧ (r.command? = none → ∃ byte ∈ request.payload, answer.response.command? = some byte) := by
  intro answer holds
  have sound : answer.response.IsSound := LawfulResponder.isSound r request (.clear response)
  have body : answer.response.body = _ :=
    response.body_after_operations r (r.choose r.state request response.clear).1
  have nonempty : answer.response.body ≠ [] := fun none => by
    simp [sound.isEmpty_iff_body.mpr none] at holds
  rw [sound.command?_eq_head?]
  rw [body] at nonempty ⊢
  refine ⟨fun command own => ?_, fun own => ?_⟩
  · rw [own] at nonempty ⊢
    have room : 1 ≤ response.capacity := by
      have := Packet.length_fitting_le response.capacity
        ((some command).toList.map ([·]) ++ (r.choose r.state request response.clear).1)
      have := List.length_pos_iff.mpr nonempty
      omega
    simp [fitting, room]
  · rw [own] at nonempty ⊢
    obtain ⟨piece, listed, held⟩ := Packet.mem_of_mem_fitting (List.head_mem nonempty)
    exact ⟨_, r.subset _ _ _ piece listed held, List.head?_eq_some_head nonempty⟩

end AppendingResponder

-----------------------------------------------------------------------------------------
-- Giving back what is asked
-----------------------------------------------------------------------------------------

namespace Conversation

/-- A payload can be given back as a response of its own. -/
def returns (capacity : Nat) (payload : List UInt8) : Bool :=
  payload ≠ [] ∧ payload.length ≤ capacity

/-- A payload that is given back is the whole body of the response. -/
theorem answer_returning {c : Conversation (AppendingResponder Unit)} (request : Packet)
    (returning : c.responder = .returning)
    : (c.answer request).responder = .returning
      ∧ (c.answer request).response.capacity = c.response.capacity
      ∧ (c.answer request).sent
        = c.sent ++ ([request.payload].filter (returns c.response.capacity)).flatMap wire := by
  have appends := (Packet.IsSound.clear c.response).builds_append request.payload
  have room : c.response.clear.bodySize + request.payload.length = request.payload.length :=
    Nat.zero_add _
  rw [room] at appends
  by_cases fits : request.payload.length ≤ c.response.capacity
  · obtain ⟨q, taken, rebuilt, sound, body⟩ := appends.built fits
    have whole : q.capacity = c.response.capacity := rebuilt.room
    have given : q.body = request.payload := body
    have answered : Responder.respond c.responder request c.response.clear
        = ⟨true, q, .returning⟩ := by
      rw [returning, AppendingResponder.respond_returning, Packet.perform, taken]
      rfl
    by_cases nothing : request.payload = []
    · have empty : q.isEmpty = true := sound.isEmpty_iff_body.mpr (given.trans nothing)
      simp only [answer, answered, empty]
      exact ⟨rfl, whole, by simp [returns, nothing]⟩
    · have holds : q.isEmpty = false := q.isEmpty_of_body (given ▸ nothing)
      simp only [answer, answered, holds, given]
      exact ⟨rfl, whole, by simp [returns, nothing, fits]⟩
  · have refused := appends.refused fits
    have answered : Responder.respond c.responder request c.response.clear
        = ⟨true, c.response.clear, .returning⟩ := by
      rw [returning, AppendingResponder.respond_returning, Packet.perform, refused]
      rfl
    have empty : c.response.clear.isEmpty = true := rfl
    simp only [answer, answered, empty]
    exact ⟨rfl, rfl, by simp [returns, fits]⟩

/-- By induction on the requests. -/
theorem foldl_answer_returning {c : Conversation (AppendingResponder Unit)} (requests : List Packet)
    (returning : c.responder = .returning)
    : (requests.foldl answer c).sent
      = c.sent
        ++ ((requests.map Packet.payload).filter (returns c.response.capacity)).flatMap wire := by
  induction requests generalizing c with
  | nil => simp
  | cons request rest ih =>
      obtain ⟨returning', room, sent⟩ := answer_returning request returning
      rw [List.foldl_cons, ih returning', room, sent, List.append_assoc, ← List.flatMap_append,
        ← List.filter_append, List.singleton_append, List.map_cons]

end Conversation

namespace Device

variable {P R S ε : Type} [Responder R] [Port P ε]

/-- What is sent in answer to a request is what the responder made of an empty response. -/
theorem response_of_answered [LawfulResponder R] {device : Device P R} {command : UInt8}
    (answered : device.step.1 = .ok (.answered command))
    : ∃ emitter : Emitter,
        let answer :=
          Responder.respond device.responder device.step.2.link.incoming device.response.clear
        device.step.2.response = { answer.response with emitter }
        ∧ answer.response.isEmpty = false := by
  cases sending : device.isSending with
  | true =>
      rw [step, if_pos sending, stepSending] at answered
      split at answered
      · cases answered
      · cases answered
      · cases answered
  | false =>
      obtain ⟨result, incoming, received, reads⟩ := device.link.receive_reads
      rw [step_of_idle sending, received] at answered ⊢
      cases reads with
      | failed | nothing | unfinished | lost => cases answered
      | complete answered taken long =>
          simp only at answered ⊢
          rcases serve_cases { device with
              link := { device.link with port := (Port.read device.link.port).2, incoming } }
            with ⟨sends, emitter, writes, served⟩ | ⟨_, served⟩
          · rw [served]
            exact ⟨emitter, rfl, by simpa using (Bool.and_eq_true_iff.mp sends).2⟩
          · rw [served] at answered
            cases answered

/-- What is appended is payload only behind a command. Whatever was done to a packet, an append goes
to the payload if the packet holds anything, and otherwise its first byte takes the place of the
command. An answer that is appended from the request's payload is under the command that was stored
before it, and if none was stored, under a byte of that payload; and a device that gives back what
it is asked says each payload as a message of its own, so that its peer chooses every command. -/
theorem appended_bytes_take_the_command_place
    : (∀ (storage : List UInt8) (history : List Packet.Operation) (data : List UInt8) (q : Packet),
        let p := (Packet.ofStorage storage).after history
        p.append data = .ok q
        → (p.isEmpty = false → q.command? = p.command? ∧ q.payload = p.payload ++ data)
          ∧ (p.isEmpty = true → q.command? = data.head? ∧ q.payload = data.drop 1)
          ∧ (q.command? = p.command? ∧ q.payload = p.payload ++ data
            ↔ p.isEmpty = false ∨ data = []))
      ∧ (∀ (device : Device P (AppendingResponder S)) (command : UInt8),
          device.step.1 = .ok (.answered command)
          → let request := device.step.2.link.incoming
            let response := device.step.2.response
            (∀ own, device.responder.command? = some own → response.command? = some own)
            ∧ (device.responder.command? = none
              → ∃ byte ∈ request.payload, response.command? = some byte))
      ∧ ∀ (port : P) (storage responses : List UInt8) (settings : LinkSettings)
          (acts : List (Act P)) (messages : List (UInt8 × List UInt8)),
          (∀ m ∈ messages, m.2.length + 2 ≤ storage.length)
          → let link := @Link.recorded P ε (.onPort port storage settings)
            let device := (onLink link AppendingResponder.returning responses).after acts
            device.link.port.lost = []
            → device.link.port.delivered = messages.flatMap (fun m => wire (m.1 :: m.2))
            → device.isSending = false
            → device.link.port.accepted
              = ((messages.map Prod.snd).filter
                  (Conversation.returns responses.length)).flatMap wire := by
  refine ⟨?_, ?_, ?_⟩
  · intro storage history data q p appended
    have sound : p.IsSound := Packet.isSound_of_history storage history
    exact ⟨sound.append_behind_command appended, sound.append_to_nothing appended,
      sound.append_is_payload_iff appended⟩
  · intro device command answered request response
    obtain ⟨emitter, same, holds⟩ := response_of_answered answered
    have chosen := device.responder.command?_respond request device.response holds
    have kept : response.command? = _ := congrArg Packet.command? same
    rw [kept]
    exact chosen
  · intro port storage responses settings acts messages fits link device faultless heard silent
    have follows : device.Follows (.ofStorage storage)
        { responder := .returning, response := .ofStorage responses } :=
      Follows.after (fun _ => tracks_onLink port storage responses settings _) acts
    have ready : (Packet.ofStorage storage).IsBetweenFrames := .inl rfl
    have payloads := congrArg (List.map Prod.snd) (ready.completed_frames messages fits)
    simp only [List.map_map, Function.comp_def] at payloads
    obtain ⟨_, _, reports⟩ := follows faultless
    cases reports with
    | silent _ account _ =>
        rw [account, heard, Conversation.upTo, Conversation.foldl_answer_returning _ rfl, payloads]
        rfl
    | sending busy _ _ _ => cases busy.symm.trans silent

/-- A cleared packet takes a payload that it is given as a message, and a device that gives back
what it is asked says a payload as a message of its own. -/
theorem appended_bytes_take_the_command_place_of_a_payload
    : let history : List Packet.Operation := [.withMessage 0x01 [0x02], .clear]
      let reads := (wire [0x01, 0x55, 0x02]).map fun byte => .ok (some byte)
      let port : ScheduledPort Unit := { reads }
      let start := onLink (.onPort port [0, 0, 0, 0] {}) AppendingResponder.returning [0, 0]
      let asked := start.step.2.step.2.step.2.step.2.step.2
      let link := @Link.recorded _ Unit (.onPort port [0, 0, 0, 0] {})
      let device := (onLink link AppendingResponder.returning [0, 0]).after [.pollAll 9]
      (∃ q, ((Packet.ofStorage [0, 0]).after history).append [0x55, 0x02] = .ok q
        ∧ q.command? = some 0x55 ∧ q.payload = [0x02])
      ∧ asked.step.1 = .ok (.answered 0x01)
      ∧ (∃ byte ∈ asked.step.2.link.incoming.payload, asked.step.2.response.command? = some byte)
      ∧ device.link.port.lost = [] ∧ device.link.port.delivered = wire [0x01, 0x55, 0x02]
      ∧ device.isSending = false ∧ device.link.port.accepted = wire [0x55, 0x02] := by
  intro history reads port start asked link device
  obtain ⟨packets, answers, returned⟩ :=
    @appended_bytes_take_the_command_place (ScheduledPort Unit) Unit Unit _
  obtain ⟨q, appended⟩
    : ∃ q, ((Packet.ofStorage [0, 0]).after history).append [0x55, 0x02] = .ok q := ⟨_, rfl⟩
  obtain ⟨-, nothing, -⟩ := packets [0, 0] history [0x55, 0x02] q appended
  obtain ⟨command, payload⟩ := nothing (by decide +kernel)
  have answered : asked.step.1 = .ok (.answered 0x01) := by decide +kernel
  obtain ⟨-, chosen⟩ := answers asked 0x01 answered
  have faultless : device.link.port.lost = [] := by decide +kernel
  have heard : device.link.port.delivered = wire [0x01, 0x55, 0x02] := by decide +kernel
  have silent : device.isSending = false := by decide +kernel
  have said := returned port [0, 0, 0, 0] [0, 0] {} [.pollAll 9] [(0x01, [0x55, 0x02])] (by decide)
  have kept : [[0x55, 0x02]].filter (Conversation.returns 2) = [[0x55, 0x02]] := by decide
  -- The device is named, so that nothing of its run is evaluated again.
  have reached : device = (onLink link AppendingResponder.returning [0, 0]).after [.pollAll 9] :=
    rfl
  clear_value device
  simp only [List.flatMap_singleton, List.map_singleton, List.length_cons, List.length_nil,
    Nat.zero_add, Nat.reduceAdd, kept, link, ← reached] at said
  exact ⟨⟨q, appended, command, payload⟩, answered, chosen (by decide +kernel), faultless, heard,
    silent, said faultless heard silent⟩

end Device

end PacketBus
