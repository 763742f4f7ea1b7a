import PacketBus.Proofs.Device.Turns
import PacketBus.Proofs.Responder.Trials

/-! What members of a chain that decline a request have to do with the response.
The response of a chain is empty when its first member is asked, but each further one is given what
the members before it have left there, and what it puts behind that is sent with it.
-/

namespace PacketBus.Chain

open PacketBus.Frame (wire)

variable {P R ε : Type} [Responder R]

/-- A chain asks its members from the left to the right, whatever the nesting, until one accepts,
and its response is what the last one asked has left. Each is given what the one before it has left,
and so all are given an empty response exactly if all that decline leave one. Where each that
declines leaves the response as it was given, the response is what the first member that accepts
builds from an empty one. A device sends the response of its chain, whoever has written it. -/
theorem next_member_is_given_what_was_left [LawfulResponder R] (chain : Chain R)
    (request : Packet) {response : Packet} (empty : response.isEmpty = true)
    : let tried := trials request chain.members response
      let answer := chain.respond request response
      let first := chain.members.find? fun member => Trial.accepted request ⟨member, response⟩
      (∃ front last,
          tried = front ++ [last]
          ∧ tried.map Trial.member <+: chain.members
          ∧ (∀ trial ∈ front, trial.accepted request = false)
          ∧ (last.accepted request = false → tried.map Trial.member = chain.members)
          ∧ answer.accepted = last.accepted request ∧ answer.response = last.left request
          ∧ tried.map Trial.given = response :: front.map (Trial.left request)
          ∧ ((∀ trial ∈ tried, trial.given.isEmpty = true)
              ↔ ∀ trial ∈ front, (trial.left request).isEmpty = true))
        ∧ ((∀ trial ∈ tried, trial.accepted request = false → trial.left request = trial.given)
            → answer.accepted = first.isSome
              ∧ answer.response
                = first.elim response fun member => Trial.left request ⟨member, response⟩)
        ∧ ∀ device : Device P (Chain R), device.responder = chain → device.link.incoming = request
            → device.response.clear = response
            → let served := @Device.serve P _ ε _ device
              let command := request.command?.getD 0
              let body := answer.response.body
              ((answer.accepted && !answer.response.isEmpty) = true
                  ∧ served.1 = .ok (.answered command)
                  ∧ served.2.link.Writes served.2.response body (wire body))
                ∨ ((answer.accepted && !answer.response.isEmpty) = false
                  ∧ served.1 = .ok (.unanswered command)) := by
  intro tried answer first
  obtain ⟨accepted, left⟩ := chain.respond_eq_trials request response
  refine ⟨?_, ?_, ?_⟩
  · obtain ⟨front, last, split, declined, part, all, given⟩ :=
      exists_last_trial chain.members_ne_nil request response
    have none : front.any (·.accepted request) = false := by simpa using declined
    refine ⟨front, last, split, part, declined, all, ?_, ?_, given, ?_⟩
    · rw [accepted, split, List.any_append, none, Bool.false_or, List.any_cons, List.any_nil,
        Bool.or_false]
    · rw [left, split, behind_append]
      rfl
    · calc
        (∀ trial ∈ tried, trial.given.isEmpty = true)
            ↔ ∀ given ∈ tried.map Trial.given, given.isEmpty = true := by simp
        _ ↔ ∀ given ∈ response :: front.map (Trial.left request), given.isEmpty = true := by
            rw [given]
        _ ↔ ∀ trial ∈ front, (trial.left request).isEmpty = true := by simp [empty]
  · intro untouched
    rw [accepted, left]
    exact trials_of_untouched untouched
  · rintro device rfl rfl rfl served command body
    rcases device.serve_cases (ε := ε) with ⟨sends, emitter, writes, same⟩ | ⟨silent, same⟩
    · refine .inl ⟨sends, congrArg Prod.fst same, ?_⟩
      simp only [served, same]
      exact writes
    · exact .inr ⟨silent, congrArg Prod.fst same⟩

/-- The first member builds a response to any request and declines it, and the second one puts the
payload of the request behind what it is given: the device sends the command and the payload of the
first one, where the second one alone would have answered with the payload of the request. -/
theorem next_member_is_given_what_was_left_by_a_declining_one
    : let declining : FreeResponder Unit :=
        { state := ()
          choose := fun _ request _ => ([.withMessage 0x55 request.payload], false, ()) }
      let appending : FreeResponder Unit :=
        { state := (), choose := fun _ request _ => ([.append request.payload], true, ()) }
      let chain := orElse (single declining) (single appending)
      let request : Packet := { storage := [0x01, 0x02, 0x1B], size := 3, verified := true }
      let response := Packet.ofStorage (List.replicate 8 0)
      let link : Link (ScheduledPort Unit) := { port := {}, incoming := request }
      let device : Device (ScheduledPort Unit) (Chain (FreeResponder Unit)) :=
        { link, responder := chain, response }
      let served := @Device.serve _ _ Unit _ device
      response.isEmpty = true
      ∧ (trials request chain.members response).map (·.given.body) = [[], [0x55, 0x02]]
      ∧ served.2.link.Writes served.2.response [0x55, 0x02, 0x02] (wire [0x55, 0x02, 0x02])
      ∧ (Trial.left request ⟨appending, response⟩).body = [0x02] := by
  intro declining appending chain request response link device served
  have empty : response.isEmpty = true := rfl
  obtain ⟨_, _, sent⟩ :=
    next_member_is_given_what_was_left (P := ScheduledPort Unit) (ε := Unit) chain request empty
  have built : (chain.respond request response).response.body = [0x55, 0x02, 0x02] := by
    decide +kernel
  rcases sent device rfl rfl rfl with ⟨_, _, writes⟩ | ⟨silent, _⟩
  · simp only [built] at writes
    refine ⟨empty, by decide +kernel, ?_, by decide +kernel⟩
    simp only [served]
    exact writes
  · cases silent

end PacketBus.Chain
