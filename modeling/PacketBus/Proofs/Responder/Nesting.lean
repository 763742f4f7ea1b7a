import PacketBus.Proofs.Device.Turns
import PacketBus.Proofs.Responder.Translation
import PacketBus.Proofs.Responder.Trials

/-! The nesting of a chain, which has no part in its answers.
A chain tries its members from the left to the right and leaves those behind the first that accepts
as they are, so that it answers like the list of its members, now and later.
-/

namespace PacketBus

variable {P R S ε : Type}

-----------------------------------------------------------------------------------------
-- Members of several kinds, and members that keep a record
-----------------------------------------------------------------------------------------

/-- Responders of two kinds, so that both may be members of one chain. -/
instance [Responder R] [Responder S] : Responder (R ⊕ S) where
  respond
    | .inl responder, request, response =>
        (Responder.respond responder request response).map .inl
    | .inr responder, request, response =>
        (Responder.respond responder request response).map .inr

/-- A responder with a record of the calls made of it: the requests, and the responses that it was
given for them. -/
structure RecordedResponder (R : Type) where
  responder : R
  calls : List (Packet × Packet) := []

instance [Responder R] : Responder (RecordedResponder R) where
  respond recorded request response :=
    (Responder.respond recorded.responder request response).map
      ({ responder := ·, calls := recorded.calls ++ [(request, response)] })

theorem RecordedResponder.translates_responder [Responder R]
    : Responder.Translates (RecordedResponder.responder : RecordedResponder R → R) :=
  ⟨fun _ _ _ => rfl⟩

namespace Chain

/-- The nesting of a chain, whatever its members. -/
def shape : Chain R → Chain Unit
  | single _ => single ()
  | orElse first second => orElse first.shape second.shape

/-- The chain of the images of its members, in the same nesting. -/
def map (image : R → S) : Chain R → Chain S
  | single responder => single (image responder)
  | orElse first second => orElse (first.map image) (second.map image)

variable [Responder R] [Responder S] {request response : Packet}

/-- By induction on the chain. -/
theorem translates_map {image : R → S} (same : Responder.Translates image)
    : Responder.Translates (Chain.map image) where
  respond chain request response := by
    change (chain.map image).respond request response = (chain.respond request response).map _
    induction chain generalizing response with
    | single responder => simp only [map, respond, same.respond, Answer.map]
    | orElse first second ih ih' =>
        simp only [map, respond, ih, Answer.map]
        split
        · rfl
        · simp only [ih', Answer.map, map]

/-- A request changes the members of a chain and not their nesting, by induction on the chain. -/
theorem shape_respond (chain : Chain R) (request response : Packet)
    : (chain.respond request response).responder.shape = chain.shape := by
  induction chain generalizing response with
  | single responder => rfl
  | orElse first second ih ih' =>
      simp only [respond]
      split
      · simp only [shape, ih]
      · simp only [shape, ih, ih']

-----------------------------------------------------------------------------------------
-- What becomes of the members
-----------------------------------------------------------------------------------------

/-- The member as it is after the trial. -/
def Trial.after (request : Packet) (trial : Trial R) : R := (trial.answer request).responder

/-- The members after a request: those that were tried as they are after their trials, and the
others as they were. -/
def membersAfter (request : Packet) (members : List R) (response : Packet) : List R :=
  let tried := trials request members response
  tried.map (Trial.after request) ++ members.drop tried.length

/-- The members that are tried are the first ones, by induction on the members. -/
theorem map_member_trials (request response : Packet) (members : List R)
    : (trials request members response).map Trial.member
      = members.take (trials request members response).length := by
  induction members generalizing response with
  | nil => rfl
  | cons member rest ih =>
      cases asked : Trial.accepted request ⟨member, response⟩ with
      | true => simp [trials_cons_of_accepted rest asked]
      | false => simpa [trials_cons_of_declined rest asked] using ih _

theorem length_trials_le (request response : Packet) (members : List R)
    : (trials request members response).length ≤ members.length := by
  have part := congrArg List.length (map_member_trials request response members)
  rw [List.length_map, List.length_take] at part
  omega

/-- All members are tried if all decline, by induction on the members. -/
theorem length_trials_of_declined {members : List R}
    (declined : (trials request members response).any (·.accepted request) = false)
    : (trials request members response).length = members.length := by
  induction members generalizing response with
  | nil => rfl
  | cons member rest ih =>
      cases asked : Trial.accepted request ⟨member, response⟩ with
      | true => simp [trials_cons_of_accepted rest asked, asked] at declined
      | false =>
          rw [trials_cons_of_declined rest asked, List.any_cons, asked, Bool.false_or] at declined
          rw [trials_cons_of_declined rest asked, List.length_cons, ih declined, List.length_cons]

/-- Members behind others are left as they are if one of these accepts. -/
theorem membersAfter_append (front back : List R)
    : membersAfter request (front ++ back) response
      = let tried := trials request front response
        membersAfter request front response
          ++ if tried.any (·.accepted request) then back
            else membersAfter request back (behind request response tried) := by
  have within := length_trials_le request response front
  simp only [membersAfter, trials_append]
  cases asked : (trials request front response).any (·.accepted request) with
  | true => simp [List.drop_append_of_le_length within]
  | false =>
      have all := length_trials_of_declined asked
      simp [all, List.drop_append]

/-- By induction on the chain. -/
theorem members_respond (chain : Chain R) (request response : Packet)
    : (chain.respond request response).responder.members
      = membersAfter request chain.members response := by
  induction chain generalizing response with
  | single responder => simp [members, respond, membersAfter, trials, Trial.after, Trial.answer]
  | orElse first second ih ih' =>
      obtain ⟨accepted, left⟩ := first.respond_eq_trials request response
      simp only [members, membersAfter_append, ← accepted, ← left, respond]
      split
      · simp only [members, ih]
      · simp only [members, ih, ih']

-----------------------------------------------------------------------------------------
-- A chain and the list of its members
-----------------------------------------------------------------------------------------

end Chain

/-- A list of responders that are tried from the left to the right until one accepts. -/
structure Roster (R : Type) where
  members : List R

instance [Responder R] : Responder (Roster R) where
  respond roster request response :=
    let tried := Chain.trials request roster.members response
    { accepted := tried.any (·.accepted request)
      response := Chain.behind request response tried
      responder := ⟨Chain.membersAfter request roster.members response⟩ }

namespace Chain

def roster (chain : Chain R) : Roster R := ⟨chain.members⟩

variable [Responder R]

theorem translates_roster
    : Responder.Translates (roster : Chain R → Roster R) where
  respond chain request response := by
    obtain ⟨accepted, left⟩ := chain.respond_eq_trials request response
    change _ = (chain.respond request response).map _
    simp only [Responder.respond, roster, Answer.map, accepted, left, members_respond]

/-- By induction on the requests. -/
theorem shape_serveEach (chain : Chain R) (requests : List (Packet × Packet))
    : (Responder.serveEach chain requests).2.shape = chain.shape := by
  induction requests generalizing chain with
  | nil => rfl
  | cons asked rest ih => exact (ih _).trans (chain.shape_respond asked.1 asked.2)

/-- Chains of the same members go on alike. -/
theorem serveEach_of_members {chain other : Chain R} (same : other.members = chain.members)
    (requests : List (Packet × Packet))
    : (Responder.serveEach other requests).1 = (Responder.serveEach chain requests).1
      ∧ (Responder.serveEach other requests).2.members
        = (Responder.serveEach chain requests).2.members := by
  have here := translates_roster.serveEach chain requests
  have there := translates_roster.serveEach other requests
  rw [show other.roster = chain.roster from congrArg Roster.mk same, here] at there
  obtain ⟨answers, rosters⟩ := Prod.mk.inj there
  exact ⟨answers.symm, (Roster.mk.inj rosters).symm⟩

/-- Devices whose chains have the same members do the same at each step. -/
theorem polled_of_members [Port P ε] {device : Device P (Chain R)} {other : Chain R}
    (same : other.members = device.responder.members) (count : Nat)
    : let alike := { device with responder := other }
      (alike.polled count).step.1 = (device.polled count).step.1
      ∧ (alike.polled count).link = (device.polled count).link
      ∧ (alike.polled count).response = (device.polled count).response
      ∧ (alike.polled count).isSending = (device.polled count).isSending
      ∧ (alike.polled count).responder.members = (device.polled count).responder.members := by
  intro alike
  have flat : alike.servedBy roster = device.servedBy roster := by
    simp only [alike, Device.servedBy, roster, same]
  have behind := translates_roster.polled alike count
  rw [flat, translates_roster.polled] at behind
  have next := translates_roster.step (alike.polled count)
  rw [← behind, translates_roster.step] at next
  obtain ⟨link, responder, response, isSending⟩ := Device.mk.inj behind
  exact ⟨(congrArg Prod.fst next).symm, link.symm, response.symm, isSending.symm,
    (Roster.mk.inj responder).symm⟩

/-- A request is a call of each member that is tried, with the response that the one before it has
left, and of no other. -/
theorem calls_respond (chain : Chain (RecordedResponder R)) (request response : Packet)
    : let tried := trials request chain.members response
      let members := (chain.respond request response).responder.members
      (members.take tried.length).map RecordedResponder.calls
          = tried.map (fun trial => trial.member.calls ++ [(request, trial.given)])
        ∧ members.drop tried.length = chain.members.drop tried.length := by
  intro tried members
  have split : members = tried.map (Trial.after request) ++ chain.members.drop tried.length :=
    chain.members_respond request response
  refine ⟨?_, ?_⟩
  · rw [split, List.take_left' (List.length_map _), List.map_map]
    rfl
  · rw [split, List.drop_left' (List.length_map _)]

/-- A chain answers like the list of its members, whatever its nesting, and so do two nestings of
the same members, at each of any requests, with the same responses and with the same left of the
members; in the same way devices with such chains do the same at each step. A request is tried on
the members from the left to the right, each with the response that the one before it has left,
until one accepts; it is accepted exactly if one does. Each member that is tried is called once, and
those behind are left as they are. -/
theorem nesting_has_no_part [Port P ε] (chain : Chain R) (requests : List (Packet × Packet))
    : let run := Responder.serveEach chain requests
      let flat := Responder.serveEach chain.roster requests
      (run.1 = flat.1 ∧ run.2.roster = flat.2 ∧ run.2.shape = chain.shape)
        ∧ (∀ other : Chain R, other.members = chain.members
            → let again := Responder.serveEach other requests
              again.1 = run.1 ∧ again.2.members = run.2.members)
        ∧ (∀ (device : Device P (Chain R)) (other : Chain R) (count : Nat),
            other.members = device.responder.members
            → let alike := { device with responder := other }
              (alike.polled count).step.1 = (device.polled count).step.1
              ∧ (alike.polled count).link = (device.polled count).link
              ∧ (alike.polled count).response = (device.polled count).response
              ∧ (alike.polled count).isSending = (device.polled count).isSending
              ∧ (alike.polled count).responder.members
                = (device.polled count).responder.members)
        ∧ ∀ (recorded : Chain (RecordedResponder R)) (request response : Packet),
            let answer := recorded.respond request response
            let members := answer.responder.members
            let tried := trials request recorded.members response
            (recorded.map RecordedResponder.responder).respond request response
                = answer.map (Chain.map RecordedResponder.responder)
              ∧ tried.map Trial.member = recorded.members.take tried.length
              ∧ (answer.accepted = true ↔ ∃ trial ∈ tried, trial.accepted request = true)
              ∧ (∀ trial ∈ tried.dropLast, trial.accepted request = false)
              ∧ (answer.accepted = false → tried.length = recorded.members.length)
              ∧ tried.map Trial.given
                = response :: tried.dropLast.map (Trial.left request)
              ∧ answer.response = behind request response tried
              ∧ (members.take tried.length).map RecordedResponder.calls
                = tried.map (fun trial => trial.member.calls ++ [(request, trial.given)])
              ∧ members.drop tried.length = recorded.members.drop tried.length := by
  intro run flat
  refine ⟨?_, ?_, ?_, ?_⟩
  · have same : flat = (run.1, run.2.roster) := translates_roster.serveEach chain requests
    exact ⟨(congrArg Prod.fst same).symm, (congrArg Prod.snd same).symm,
      chain.shape_serveEach requests⟩
  · exact fun other same => serveEach_of_members same requests
  · exact fun device other count same => polled_of_members same count
  · intro recorded request response answer members tried
    obtain ⟨accepted, left⟩ := recorded.respond_eq_trials request response
    obtain ⟨front, last, split, declined, _, _, given⟩ :=
      exists_last_trial recorded.members_ne_nil request response
    have before : tried.dropLast = front := by
      simp only [tried, split, List.dropLast_concat]
    obtain ⟨called, kept⟩ := recorded.calls_respond request response
    have unrecorded := translates_map RecordedResponder.translates_responder
      (R := RecordedResponder R)
    refine ⟨unrecorded.respond recorded request response, map_member_trials _ _ _, ?_, ?_, ?_, ?_,
      left, called, kept⟩
    · rw [show answer.accepted = _ from accepted, List.any_eq_true]
    · rwa [before]
    · exact fun none => length_trials_of_declined (accepted.symm.trans none)
    · rwa [before]

/-- A service that knows the ping, a responder that answers a command by the number of its calls and
puts it into the response even if it declines, and one that sends any payload back, nested to the
left and to the right. The second one is not called for the ping, and the third for one request
alone, for which it is given what the second has left. -/
theorem nesting_has_no_part_in_what_is_counted
    : let counting : FreeResponder Nat :=
        { state := 0
          choose := fun calls request _ =>
            ([.append [UInt8.ofNat calls]], request.command? == some 0x07, calls + 1) }
      let returning : FreeResponder Nat :=
        { state := 0
          choose := fun calls request _ => ([.append request.payload], true, calls + 1) }
      let ping : Chain (Service ⊕ FreeResponder Nat) := single (.inl .ping)
      let left := orElse (orElse ping (single (.inr counting))) (single (.inr returning))
      let right := orElse ping (orElse (single (.inr counting)) (single (.inr returning)))
      let response := Packet.ofStorage [0, 0, 0, 0]
      let request : List UInt8 → Packet × Packet := fun body =>
        ({ storage := body, size := body.length }, response)
      let requests := [request [0x07], request [Command.ping], request [0x09, 0xAA]]
      let states (chain : Chain (Service ⊕ FreeResponder Nat)) :=
        chain.members.map (Sum.elim (fun _ => 0) FreeResponder.state)
      right.members = left.members
      ∧ (Responder.serveEach right requests).1 = (Responder.serveEach left requests).1
      ∧ (Responder.serveEach left requests).1.map (fun answer => (answer.1, answer.2.body))
        = [(true, [0x00]), (true, [Command.ping]), (true, [0x01, 0xAA])]
      ∧ states (Responder.serveEach right requests).2 = states (Responder.serveEach left requests).2
      ∧ states (Responder.serveEach left requests).2 = [0, 2, 1] := by
  intro counting returning ping left right response request requests states
  obtain ⟨-, others, -⟩ :=
    nesting_has_no_part (P := ScheduledPort Unit) (ε := Unit) left requests
  obtain ⟨answers, members⟩ := others right rfl
  exact ⟨rfl, answers, by decide +kernel, congrArg (List.map _) members, by decide +kernel⟩

end Chain

end PacketBus
