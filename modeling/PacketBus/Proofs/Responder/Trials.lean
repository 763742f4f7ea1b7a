import PacketBus.Responder

/-! The members of a chain that a request is tried on.
They are asked from the left to the right until one accepts, whatever the nesting, and each is given
the response as the one before it has left it.
-/

namespace PacketBus.Chain

variable {R : Type} [Responder R]

/-- A member that is asked, and the response that it is given. -/
structure Trial (R : Type) where
  member : R
  given : Packet

namespace Trial

/-- What the member makes of the request. -/
def answer (request : Packet) (trial : Trial R) : Answer R :=
  Responder.respond trial.member request trial.given

def accepted (request : Packet) (trial : Trial R) : Bool := (trial.answer request).accepted

/-- The response as the member leaves it. -/
def left (request : Packet) (trial : Trial R) : Packet := (trial.answer request).response

end Trial

/-- Asks one member after the other until one accepts. -/
def trials (request : Packet) : List R → Packet → List (Trial R)
  | [], _ => []
  | member :: rest, response =>
      let trial : Trial R := ⟨member, response⟩
      trial :: if trial.accepted request then [] else trials request rest (trial.left request)

/-- The response behind a number of trials. -/
def behind (request response : Packet) (tried : List (Trial R)) : Packet :=
  tried.foldl (fun _ trial => trial.left request) response

variable {request response : Packet}

theorem behind_append (front back : List (Trial R))
    : behind request response (front ++ back)
      = behind request (behind request response front) back :=
  List.foldl_append ..

theorem trials_cons_of_accepted {member : R} (rest : List R)
    (accepted : Trial.accepted request ⟨member, response⟩ = true)
    : trials request (member :: rest) response = [⟨member, response⟩] := by
  simp only [trials, accepted, if_true]

theorem trials_cons_of_declined {member : R} (rest : List R)
    (declined : Trial.accepted request ⟨member, response⟩ = false)
    : trials request (member :: rest) response
      = ⟨member, response⟩ :: trials request rest (Trial.left request ⟨member, response⟩) := by
  simp only [trials, declined, Bool.false_eq_true, if_false]

-----------------------------------------------------------------------------------------
-- A chain
-----------------------------------------------------------------------------------------

omit [Responder R] in
theorem members_ne_nil (chain : Chain R)
    : chain.members ≠ [] := by
  induction chain with
  | single responder => exact List.cons_ne_nil _ _
  | orElse first second ih _ => exact List.append_ne_nil_of_left_ne_nil ih _

/-- The members behind others are asked only if all of these decline, by induction on those in
front. -/
theorem trials_append (front back : List R)
    : trials request (front ++ back) response
      = let tried := trials request front response
        tried
          ++ if tried.any (·.accepted request) then []
            else trials request back (behind request response tried) := by
  induction front generalizing response with
  | nil => rfl
  | cons member rest ih =>
      cases answered : Trial.accepted request ⟨member, response⟩ with
      | true => simp [trials_cons_of_accepted _ answered, answered]
      | false =>
          rw [List.cons_append, trials_cons_of_declined _ answered, ih,
            trials_cons_of_declined _ answered]
          simp [answered, behind]

/-- A chain answers like its members, asked one by one; by induction on the chain. -/
theorem respond_eq_trials (chain : Chain R) (request response : Packet)
    : let tried := trials request chain.members response
      (chain.respond request response).accepted = tried.any (·.accepted request)
        ∧ (chain.respond request response).response = behind request response tried := by
  induction chain generalizing response with
  | single responder =>
      have alone : trials request [responder] response = [⟨responder, response⟩] := by
        simp [trials]
      simp [members, alone, respond, behind, Trial.accepted, Trial.left, Trial.answer]
  | orElse first second ih ih' =>
      obtain ⟨accepted, left⟩ := ih response
      simp only [members, trials_append, respond]
      cases asked : (first.respond request response).accepted with
      | true =>
          rw [asked] at accepted
          simp [← accepted, left]
      | false =>
          obtain ⟨accepted', left'⟩ := ih' (first.respond request response).response
          rw [asked] at accepted
          rw [left] at accepted' left'
          simp only [Bool.false_eq_true, if_false, ← accepted, left, List.any_append,
            Bool.false_or, behind_append]
          exact ⟨accepted', left'⟩

-----------------------------------------------------------------------------------------
-- The trials of a list of members
-----------------------------------------------------------------------------------------

/-- All members that are asked decline but for the last, which is the last of all if it declines as
well; by induction on the members. -/
theorem exists_last_trial {members : List R} (some : members ≠ []) (request response : Packet)
    : ∃ front last,
        trials request members response = front ++ [last]
        ∧ (∀ trial ∈ front, trial.accepted request = false)
        ∧ (trials request members response).map Trial.member <+: members
        ∧ (last.accepted request = false
            → (trials request members response).map Trial.member = members)
        ∧ (trials request members response).map Trial.given
          = response :: front.map (Trial.left request) := by
  induction members generalizing response with
  | nil => exact absurd rfl some
  | cons member rest ih =>
      cases asked : Trial.accepted request ⟨member, response⟩ with
      | true =>
          rw [trials_cons_of_accepted rest asked]
          refine ⟨[], ⟨member, response⟩, rfl, nofun, ⟨rest, rfl⟩, ?_, rfl⟩
          exact fun declined => absurd (asked.symm.trans declined) Bool.false_ne_true.symm
      | false =>
          rw [trials_cons_of_declined rest asked]
          by_cases more : rest = []
          · subst more
            exact ⟨[], ⟨member, response⟩, rfl, nofun, ⟨[], rfl⟩, fun _ => rfl, rfl⟩
          · obtain ⟨front, last, split, declined, part, all, given⟩ :=
              ih more (Trial.left request ⟨member, response⟩)
            refine ⟨⟨member, response⟩ :: front, last, congrArg _ split, ?_, ?_, ?_, ?_⟩
            · intro trial tried
              rcases List.mem_cons.mp tried with rfl | later
              · exact asked
              · exact declined trial later
            · exact List.cons_prefix_cons.mpr ⟨rfl, part⟩
            · exact fun none => congrArg (member :: ·) (all none)
            · exact congrArg (response :: ·) given

/-- Members that decline and leave the response as it was given to them have no part in the answer,
which is that of the first member that accepts the request with the response given to the chain; by
induction on the members. -/
theorem trials_of_untouched {members : List R}
    (untouched : ∀ trial ∈ trials request members response,
        trial.accepted request = false → trial.left request = trial.given)
    : let tried := trials request members response
      let first := members.find? fun member => Trial.accepted request ⟨member, response⟩
      tried.any (·.accepted request) = first.isSome
        ∧ behind request response tried
          = first.elim response fun member => Trial.left request ⟨member, response⟩ := by
  induction members generalizing response with
  | nil => exact ⟨rfl, rfl⟩
  | cons member rest ih =>
      cases asked : Trial.accepted request ⟨member, response⟩ with
      | true =>
          simp [trials_cons_of_accepted rest asked, asked, behind]
      | false =>
          have same := untouched ⟨member, response⟩ (by simp [trials]) asked
          rw [trials_cons_of_declined rest asked] at untouched ⊢
          rw [same] at untouched ⊢
          obtain ⟨accepted, left⟩ := ih fun trial tried => untouched trial (.tail _ tried)
          simp only [List.find?_cons, asked, List.any_cons, Bool.false_or]
          exact ⟨accepted, by rw [← left, behind, List.foldl_cons, same, behind]⟩

end PacketBus.Chain
