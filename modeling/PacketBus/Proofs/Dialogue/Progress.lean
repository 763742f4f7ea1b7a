import PacketBus.Proofs.Dialogue.Moves
import PacketBus.Proofs.Dialogue.Standing

/-! Calls come to their end.
All that goes over the line is bounded by the frames of the calls. A round in which every part has
its turn and nothing grows is possible only when the last call has returned.
-/

namespace PacketBus

open PacketBus.Frame (wire)

namespace Visit

-----------------------------------------------------------------------------------------
-- How far a visit has come
-----------------------------------------------------------------------------------------

/-- How many calls were made, and how far both ends have come. -/
structure Standing where
  asked : Nat
  host : Line.Standing
  server : Line.Standing

def standing (v : Visit) : Standing where
  asked := v.asked.length
  host := Line.standing v.hostPort
  server := Line.standing v.serverPort

/-- A round in which every part has its turn. -/
structure GivesTurns (round : List Move) : Prop where
  host : .host ∈ round
  server : .server ∈ round
  carryRequest : .line .carryRequest ∈ round
  carryAnswer : .line .carryAnswer ∈ round
  requestRoom : ∃ bytes, 0 < bytes ∧ .line (.requestRoom bytes) ∈ round
  answerRoom : ∃ bytes, 0 < bytes ∧ .line (.answerRoom bytes) ∈ round

namespace Standing

def weight (s : Standing) : Nat := s.asked + s.host.weight + s.server.weight

structure Grows (s t : Standing) : Prop where
  asked : s.asked ≤ t.asked
  host : s.host.Grows t.host
  server : s.server.Grows t.server

variable {s t u : Standing} {calls : List Call}

theorem Grows.refl (s : Standing)
    : s.Grows s :=
  ⟨Nat.le_refl _, .refl _, .refl _⟩

theorem Grows.trans (h : s.Grows t) (next : t.Grows u)
    : s.Grows u :=
  ⟨Nat.le_trans h.asked next.asked, h.host.trans next.host, h.server.trans next.server⟩

theorem Grows.weight (h : s.Grows t)
    : s.weight ≤ t.weight ∧ (t.weight ≤ s.weight → t = s) := by
  obtain ⟨asked, host, server⟩ := s
  obtain ⟨asked', host', server'⟩ := t
  obtain ⟨moreHost, sameHost⟩ := h.host.weight
  obtain ⟨moreServer, sameServer⟩ := h.server.weight
  have moreAsked := h.asked
  simp only [Standing.weight] at *
  refine ⟨by omega, fun heavy => ?_⟩
  obtain rfl : asked' = asked := by omega
  rw [sameHost (by omega), sameServer (by omega)]

/-- How many bytes the calls come to that were made. -/
def due (calls : List Call) (s : Standing) : Nat := (frames (calls.take s.asked)).length

/-- All calls were made, and all that is to come back was read. -/
structure IsDone (calls : List Call) (s : Standing) : Prop where
  asked : s.asked = calls.length
  read : s.host.read = (frames calls).length

/-- What has come as far as it can where a move changes nothing. -/
def Rests (calls : List Call) (s : Standing) : Move → Prop
  | .host =>
      s.host.isOpen = true → s.host.sent = s.due calls
        ∧ (s.host.read = s.host.arrived ∧ s.host.read < s.due calls ∨ s.IsDone calls)
  | .server =>
      s.server.isOpen = true → s.server.read = s.server.arrived
        ∧ (s.server.read = s.due calls → s.server.sent = s.due calls)
  | .line .carryRequest => s.server.arrived = s.host.sent
  | .line .carryAnswer => s.host.arrived = s.server.sent
  | .line (.requestRoom bytes) => 0 < bytes → s.host.isOpen = true
  | .line (.answerRoom bytes) => 0 < bytes → s.server.isOpen = true
  | .line (.elapse _) => True

/-- Where no part has anything left to do in its turn, all is done: what was sent has gone to the
server and back, and the host has read it. -/
theorem isDone_of_rests {round : List Move} (turns : GivesTurns round)
    (rests : ∀ move ∈ round, s.Rests calls move)
    : s.IsDone calls := by
  obtain ⟨_, some, requestRoom⟩ := turns.requestRoom
  obtain ⟨_, some', answerRoom⟩ := turns.answerRoom
  obtain ⟨sent, host⟩ := rests _ turns.host (rests _ requestRoom some)
  obtain ⟨heard, said⟩ := rests _ turns.server (rests _ answerRoom some')
  have reached : s.server.arrived = s.host.sent := rests _ turns.carryRequest
  have came : s.host.arrived = s.server.sent := rests _ turns.carryAnswer
  rcases host with ⟨read, short⟩ | done
  · have answered := said (heard.trans (reached.trans sent))
    omega
  · exact done

end Standing

variable {storage : List UInt8} {calls : List Call} {v : Visit}

-----------------------------------------------------------------------------------------
-- One move
-----------------------------------------------------------------------------------------

theorem grows_stepHost (v : Visit)
    : v.standing.Grows (v.perform .host).standing := by
  have pause : ∀ port : RecordedPort LineEnd Fault,
      (Line.standing port).Grows (Line.standing (Clock.pause port)) :=
    fun port => Line.grows_adjust port Clock.pause List.prefix_rfl (Nat.le_refl _)
  simp only [perform, stepHost]
  split
  · split
    · exact .refl _
    · next next later waiting =>
        refine ⟨?_, ?_, .refl _⟩
        · simp [standing, asked]
        · simp only [standing, hostPort, Exchange.start, Exchange.port_send]
          exact .refl _
  · exact ⟨Nat.le_refl _, v.exchange.port_step Line.keeps_grows pause, .refl _⟩

/-- No move takes anything back. -/
theorem Consistent.grows (h : v.Consistent storage calls) (fits : AllFit storage calls)
    (move : Move)
    : v.standing.Grows (v.perform move).standing := by
  cases move with
  | host => exact grows_stepHost v
  | server =>
      refine ⟨Nat.le_refl _, .refl _, ?_⟩
      simp only [standing, h.serverPort_perform fits]
      exact v.session.device.port_step Line.keeps_grows
  | line act =>
      obtain ⟨atHost, atServer⟩ := Line.grows_act v.hostPort v.serverPort act
      exact ⟨Nat.le_refl _, atHost, atServer⟩

theorem Consistent.due (h : v.Consistent storage calls)
    : v.standing.due calls = (frames v.asked).length := by
  rw [Standing.due, standing, ← List.prefix_iff_eq_take.mp h.asked_part]

/-- A host that can do nothing waits for more of an answer, or has no call left to make. -/
theorem Consistent.host_rests (h : v.Consistent storage calls) (timely : ¬v.IsLate)
    (still : (v.perform .host).standing = v.standing)
    : v.standing.Rests calls .host := by
  intro opened
  rw [h.due, frames_asked]
  cases h.reaches with
  | sending busy writes sent heard =>
      have going : v.exchange.result? = none := by simp only [Exchange.result?, busy]
      have pushed : (v.perform .host).hostPort
          = (v.exchange.host.link.push v.exchange.request).link.port := by
        simp [hostPort, Visit.perform, stepHost, going, Exchange.step, busy,
          Exchange.port_stepSending]
      have same := congrArg (fun s => s.host.sent) still
      simp only [standing, pushed] at same
      exact absurd same (writes.sent_push opened)
  | @waiting deadline front back waits sent heard split more =>
      have going : v.exchange.result? = none := by simp only [Exchange.result?, waits]
      have due := lt_of_not_isLate timely waits
      have same := congrArg (fun s => s.host.read) still
      simp only [standing, hostPort, Visit.perform, stepHost, going] at same
      have none := Exchange.incoming_of_still waits due same
      refine ⟨congrArg List.length sent, .inl ⟨?_, ?_⟩⟩
      · simp [standing, Line.standing, Line.arrived, hostPort, none]
      · have left := List.length_pos_iff.mpr more
        simp only [standing, Line.standing, hostPort, heard, ← split, List.length_append]
        omega
  | answered done sent heard brings =>
      refine ⟨congrArg List.length sent, .inr ?_⟩
      have finished : v.exchange.result?.isSome = true := by simp only [Exchange.result?, done]; rfl
      cases waiting : v.waiting with
      | nil =>
          have all : v.asked = calls := by
            rw [asked, ← h.order, waiting]
          refine ⟨congrArg List.length all, ?_⟩
          rw [← all, frames_asked]
          exact congrArg List.length heard
      | cons next later =>
          have more := congrArg Standing.asked still
          simp [standing, asked, Visit.perform, stepHost, finished, waiting] at more

/-- A server that can do nothing has read all that has come and said all that it has to say. -/
theorem Consistent.server_rests (h : v.Consistent storage calls) (fits : AllFit storage calls)
    (still : (v.perform .server).standing = v.standing)
    : v.standing.Rests calls .server := by
  intro opened
  have same : Line.standing v.session.device.step.2.link.port = Line.standing v.serverPort := by
    rw [← h.serverPort_perform fits]
    exact congrArg Standing.server still
  cases h.tracks.reports with
  | sending busy writes account response =>
      rw [Device.step_of_sending busy] at same
      exact absurd (congrArg Line.Standing.sent same) (writes.sent_push opened)
  | silent idle account response =>
      rw [Device.port_step_of_idle idle] at same
      obtain ⟨_, whole, _⟩ := h.reply fits
      rcases Line.receive_cases v.session.device.link with
        ⟨none, _⟩ | ⟨byte, rest, incoming, delivered, _⟩
      · refine ⟨?_, fun heard => ?_⟩
        · simp [standing, Line.standing, Line.arrived, serverPort, none]
        · rw [h.due] at heard ⊢
          have all := h.heard.eq_of_length heard
          exact congrArg List.length (account.trans (whole all))
      · have more := congrArg Line.Standing.read same
        simp [Line.standing, serverPort, delivered] at more

/-- Where a move changes nothing, it had nothing to do. -/
theorem Consistent.rests (h : v.Consistent storage calls) (fits : AllFit storage calls)
    {move : Move} (timely : move = .host → ¬v.IsLate)
    (still : (v.perform move).standing = v.standing)
    : v.standing.Rests calls move := by
  cases move with
  | host => exact h.host_rests (timely rfl) still
  | server => exact h.server_rests fits still
  | line act =>
      have atHost := congrArg Standing.host still
      have atServer := congrArg Standing.server still
      cases act with
      | carryRequest => exact h.requests.arrived_of_still (congrArg Line.Standing.arrived atServer)
      | carryAnswer => exact h.answers.arrived_of_still (congrArg Line.Standing.arrived atHost)
      | elapse milliseconds => trivial
      | requestRoom bytes =>
          intro some
          have opened := congrArg Line.Standing.isOpen atHost
          exact opened.symm.trans (Line.isOpen_of_room v.hostPort some)
      | answerRoom bytes =>
          intro some
          have opened := congrArg Line.Standing.isOpen atServer
          exact opened.symm.trans (Line.isOpen_of_room v.serverPort some)

-----------------------------------------------------------------------------------------
-- Round after round
-----------------------------------------------------------------------------------------

/-- By induction on the moves. -/
theorem Consistent.grows_after (h : v.Consistent storage calls) (fits : AllFit storage calls)
    {moves : List Move} (timely : v.IsTimely moves)
    : v.standing.Grows (v.after moves).standing := by
  induction moves generalizing v with
  | nil => exact .refl _
  | cons move rest ih =>
      have now : move = .host → ¬v.IsLate := fun host => timely [] (host ▸ ⟨rest, rfl⟩)
      have next := h.perform fits now
      exact (h.grows fits move).trans (ih next (@IsTimely.back v [move] rest timely))

/-- Where moves have changed nothing, each of them had nothing to do; by induction on the moves. -/
theorem Consistent.rests_after (h : v.Consistent storage calls) (fits : AllFit storage calls)
    {moves : List Move} (timely : v.IsTimely moves)
    (still : (v.after moves).standing = v.standing)
    : ∀ move ∈ moves, v.standing.Rests calls move := by
  induction moves generalizing v with
  | nil => exact fun _ none => absurd none List.not_mem_nil
  | cons move rest ih =>
      have now : move = .host → ¬v.IsLate := fun host => timely [] (host ▸ ⟨rest, rfl⟩)
      have timely' := @IsTimely.back v [move] rest timely
      have next := h.perform fits now
      have same : (v.perform move).standing = v.standing := by
        refine (h.grows fits move).weight.2 ?_
        rw [← still]
        exact (next.grows_after fits timely').weight.1
      intro other member
      rcases List.mem_cons.mp member with rfl | later
      · exact h.rests fits now same
      · rw [← same]
        exact ih next timely' (still.trans same.symm) other later

theorem frames_mono {front : List Call} (part : front <+: calls)
    : frames front <+: frames calls := by
  obtain ⟨rest, rfl⟩ := part
  rw [frames_append]
  exact List.prefix_append _ _

/-- All that goes over the line is bounded by the calls. -/
structure Standing.IsWithin (calls : List Call) (s : Standing) : Prop where
  asked : s.asked ≤ calls.length
  read : s.host.read ≤ (frames calls).length
  weight : s.weight ≤ calls.length + 8 * (frames calls).length + 2

theorem Consistent.isWithin (h : v.Consistent storage calls) (fits : AllFit storage calls)
    : v.standing.IsWithin calls := by
  have all := (frames_mono h.asked_part).length_le
  have sent := h.sent.length_le
  have came := (h.arrived fits).length_le
  have reached : (Line.arrived v.serverPort).length ≤ v.hostPort.accepted.length := by
    rw [h.requests, List.length_append]
    exact Nat.le_add_right _ _
  have heard := h.heard.length_le
  have said := (h.said.1.trans (h.reply fits).1).length_le
  have read : v.hostPort.delivered.length ≤ (Line.arrived v.hostPort).length :=
    (List.prefix_append _ _).length_le
  have hostRoom := (Line.standing v.hostPort).isOpen.toNat_le
  have serverRoom := (Line.standing v.serverPort).isOpen.toNat_le
  refine ⟨h.asked_part.length_le, ?_, ?_⟩
  · simp only [standing, Line.standing]
    omega
  · have asked := h.asked_part.length_le
    simp only [Standing.weight, standing, Line.Standing.weight]
    simp only [Line.standing] at hostRoom serverRoom ⊢
    omega

/-- What is done stays done. -/
theorem Standing.IsDone.of_grows {s t : Standing} (done : s.IsDone calls) (grown : s.Grows t)
    (within : t.IsWithin calls)
    : t.IsDone calls where
  asked := Nat.le_antisymm within.asked (done.asked ▸ grown.asked)
  read := Nat.le_antisymm within.read (done.read ▸ grown.host.read)

/-- A round brings a visit on, or all is done. -/
theorem Consistent.round (h : v.Consistent storage calls) (fits : AllFit storage calls)
    {round : List Move} (timely : v.IsTimely round) (turns : GivesTurns round)
    : (v.after round).standing.IsDone calls
      ∨ v.standing.weight < (v.after round).standing.weight := by
  obtain ⟨_, still⟩ := (h.grows_after fits timely).weight
  by_cases heavy : (v.after round).standing.weight ≤ v.standing.weight
  · have rests := h.rests_after fits timely (still heavy)
    rw [still heavy]
    exact .inl (Standing.isDone_of_rests turns rests)
  · exact .inr (Nat.lt_of_not_le heavy)

/-- Each round brings a visit on until all is done, by induction on the rounds. -/
theorem Consistent.rounds (h : v.Consistent storage calls) (fits : AllFit storage calls)
    {rounds : List (List Move)} (timely : v.IsTimely rounds.flatten)
    (turns : ∀ round ∈ rounds, GivesTurns round)
    : (v.after rounds.flatten).standing.IsDone calls
      ∨ v.standing.weight + rounds.length ≤ (v.after rounds.flatten).standing.weight := by
  induction rounds generalizing v with
  | nil => exact .inr (Nat.le_refl _)
  | cons round rest ih =>
      rw [List.flatten_cons] at timely ⊢
      rw [after_append]
      have next := h.after fits timely.front
      have grown := next.grows_after fits timely.back
      have last := (next.after fits timely.back).isWithin fits
      rcases h.round fits timely.front (turns round List.mem_cons_self) with done | more
      · exact .inl (done.of_grows grown last)
      · rcases ih next timely.back fun other member => turns other (List.mem_cons_of_mem _ member)
          with done | later
        · exact .inl done
        · rw [List.length_cons]
          exact .inr (by omega)

/-- When all is done the last call has returned. -/
theorem Consistent.returned_of_isDone (h : v.Consistent storage calls)
    (done : v.standing.IsDone calls)
    : v.returned.map Prod.fst = calls := by
  have all : v.asked = calls := h.asked_part.eq_of_length done.asked
  have read : v.hostPort.delivered.length = (frames v.asked).length := by
    rw [all]
    exact done.read
  rw [frames_asked, hostPort, List.length_append] at read
  have finished : v.exchange.result?.isSome = true := by
    cases h.reaches with
    | sending busy writes sent heard =>
        rw [heard] at read
        simp [wire] at read
    | waiting waits sent heard split more =>
        have left := List.length_pos_iff.mpr more
        rw [heard, ← split, List.length_append, List.length_append] at read
        omega
    | answered answered sent heard brings => simp [Exchange.result?, answered]
  rw [Visit.returned, if_pos finished, List.map_append]
  exact all

-----------------------------------------------------------------------------------------
-- All calls
-----------------------------------------------------------------------------------------

/-- A ping takes two bytes, its command and its checksum, in the packets of both ends. -/
theorem allFit_of_echoes
    (echoes : ∀ request, .echo request ∈ calls
      → request.payload.length + 2 ≤ EchoServer.maxPacket
        ∧ request.payload.length + 2 ≤ storage.length)
    (room : 2 ≤ storage.length)
    : AllFit storage calls := by
  intro call member
  cases call with
  | ping => exact ⟨room, Nat.le_add_left 2 254⟩
  | echo request => exact ⟨(echoes request member).2, (echoes request member).1⟩

/-- A host calls an echo server over a line that loses nothing, however the line splits, delays and
refuses bytes. If its receive packet has room for the two bytes of a ping, its echoes fit the packets
of both ends and no deadline expires, each call returns with the answer to its first attempt and
leaves nothing behind, the server answers every request, and once every part has had its turn often
enough all calls have returned. -/
theorem every_call_is_answered (hostSettings serverSettings : LinkSettings) (storage : List UInt8)
    (first : Call) (later : List Call) (moves : List Move)
    (echoes : ∀ request, .echo request ∈ first :: later
      → request.payload.length + 2 ≤ EchoServer.maxPacket
        ∧ request.payload.length + 2 ≤ storage.length)
    (room : 2 ≤ storage.length)
    (timely : (start hostSettings serverSettings storage first later).IsTimely moves)
    : let calls := first :: later
      let v := (start hostSettings serverSettings storage first later).after moves
      v.returned.map Prod.fst <+: calls
      ∧ (∀ entry ∈ v.returned, IsSettled entry)
      ∧ (v.exchange.result?.isSome = true → v.IsClear)
      ∧ v.session.result? = none
      ∧ (∃ event, v.session.device.step.1 = .ok event ∧ ¬LosesRequest event)
      ∧ ∀ rounds : List (List Move), moves = rounds.flatten → (∀ round ∈ rounds, GivesTurns round)
        → calls.length + 8 * (frames calls).length + 2 < rounds.length
        → v.returned.map Prod.fst = calls := by
  intro calls v
  have fits : AllFit storage calls := allFit_of_echoes echoes room
  have begun := consistent_start hostSettings serverSettings storage first later
  have consistent : v.Consistent storage calls := begun.after fits timely
  obtain ⟨returned, settled⟩ := consistent.returned
  refine ⟨returned, settled, consistent.isClear fits, consistent.serving, consistent.event fits, ?_⟩
  rintro rounds rfl turns enough
  refine consistent.returned_of_isDone ?_
  rcases begun.rounds fits timely turns with done | grown
  · exact done
  · have bound := (consistent.isWithin fits).weight
    have far := Nat.le_trans grown bound
    omega

instance (v : Visit) : Decidable v.IsLate :=
  match stage : v.exchange.stage with
  | .waiting deadline =>
      decidable_of_iff (deadline ≤ Clock.now v.hostPort) (by simp [IsLate, stage])
  | .sending | .answered | .failed _ => isFalse (by simp [IsLate, stage])

/-- Whether a deadline expires is found by making the moves, one after the other. -/
theorem isTimely_cons_iff (v : Visit) (move : Move) (rest : List Move)
    : v.IsTimely (move :: rest) ↔ (move = .host → ¬v.IsLate) ∧ (v.perform move).IsTimely rest := by
  constructor
  · intro timely
    exact ⟨fun host => timely [] (host ▸ ⟨rest, rfl⟩), @IsTimely.back v [move] rest timely⟩
  · rintro ⟨now, later⟩ front part
    cases front with
    | nil => exact now (List.cons_prefix_cons.mp part).1.symm
    | cons other front =>
        obtain ⟨rfl, part'⟩ := List.cons_prefix_cons.mp part
        exact later front part'

instance decidableTimely : (v : Visit) → (moves : List Move) → Decidable (v.IsTimely moves)
  | _, [] => isTrue fun _ part => absurd (List.prefix_nil.mp part) (by simp)
  | v, move :: rest =>
      have := decidableTimely (v.perform move) rest
      decidable_of_iff _ (v.isTimely_cons_iff move rest).symm

/-- A round over a line that takes and carries one byte at a time. -/
def byteRound : List Move :=
  [.line (.requestRoom 1), .host, .line .carryRequest, .line (.answerRoom 1), .server,
    .line .carryAnswer, .line (.elapse 1)]

theorem givesTurns_byteRound
    : GivesTurns byteRound :=
  ⟨by decide, by decide, by decide, by decide, ⟨1, by decide⟩, ⟨1, by decide⟩⟩

/-- A host whose receive packet holds one byte reads the whole answer to its ping and throws it
away. Every part has its turn often enough and no deadline expires, but the call does not return;
all that it comes to is that the time for the answer is over. -/
theorem ping_is_not_answered_without_room
    : let rounds := List.replicate 40 byteRound
      let begun := start { responseTimeout := 100 } {} [0] .ping []
      let v := begun.after rounds.flatten
      begun.IsTimely rounds.flatten ∧ (∀ round ∈ rounds, GivesTurns round)
      ∧ [Call.ping].length + 8 * (frames [.ping]).length + 2 < rounds.length
      ∧ v.hostPort.delivered = wire [Command.ping] ∧ v.returned = []
      ∧ (v.after [.line (.elapse 100), .host]).exchange.result?
        = some (.error (.noResponse 100)) := by
  intro rounds begun v
  refine ⟨by decide +kernel, ?_, by decide, by decide +kernel, ?_, by decide +kernel⟩
  · intro round member
    obtain rfl := List.eq_of_mem_replicate member
    exact givesTurns_byteRound
  · have unanswered : v.past = [] ∧ v.exchange.result?.isSome = false := by decide +kernel
    rw [returned, unanswered.1, unanswered.2]
    rfl

/-- Two calls whose echo just fits the host, over a line that takes and carries one byte at a time;
each byte of the echo is a reserved one. -/
theorem calls_are_answered_byte_by_byte
    : let request : EchoRequest := .ofPayload [0xC0, 0xDB]
      let rounds := List.replicate 101 byteRound
      let begun := start { responseTimeout := 50 } {} [0, 0, 0, 0] (.echo request) [.ping]
      let v := begun.after rounds.flatten
      begun.IsTimely rounds.flatten
      ∧ v.returned.map Prod.fst = [.echo request, .ping] ∧ (∀ entry ∈ v.returned, IsSettled entry)
      ∧ v.IsClear := by
  intro request rounds begun v
  have timely : begun.IsTimely rounds.flatten := by decide +kernel
  have echoes : ∀ other, Call.echo other ∈ [.echo request, .ping]
      → other.payload.length + 2 ≤ EchoServer.maxPacket ∧ other.payload.length + 2 ≤ 4 := by
    intro other asked
    obtain rfl : other = request := by simpa using asked
    decide
  have turns : ∀ other ∈ rounds, GivesTurns other := by
    intro other member
    obtain rfl := List.eq_of_mem_replicate member
    exact givesTurns_byteRound
  obtain ⟨_, settled, clear, _, _, all⟩ :=
    every_call_is_answered { responseTimeout := 50 } {} [0, 0, 0, 0] (.echo request) [.ping]
      rounds.flatten echoes (by decide) timely
  exact ⟨timely, all rounds rfl turns (by decide +kernel), settled, clear (by decide +kernel)⟩

end Visit

end PacketBus
