import PacketBus.Proofs.Link.Listening
import PacketBus.Proofs.Port.Translation

/-! Pauses of a port, which a link does not notice.
A port pauses where a call brings or takes nothing and leaves all to come as it was. A link over it
receives and sends what it does over the port without its pauses, only by more calls.
-/

namespace PacketBus

variable {P Q ε : Type}

/-- The read brings nothing, or fails in a way that is excused. -/
def Port.isPause (excused : ε → Bool) : Except ε (Option UInt8) → Bool
  | .ok none => true
  | .ok (some _) => false
  | .error fault => excused fault

/-- A port and its image answer alike but for pauses of the port, of which at most a number are to
come. -/
structure Port.Calms [Port P ε] [Port Q ε] (image : P → Q) (excused : ε → Bool)
    (pauses : P → Nat) : Prop where
  read
    : ∀ port,
        (Port.isPause excused (Port.read port).1 = true ∧ image (Port.read port).2 = image port
            ∧ pauses (Port.read port).2 < pauses port)
          ∨ (Port.read (image port) = ((Port.read port).1, image (Port.read port).2)
            ∧ pauses (Port.read port).2 ≤ pauses port)
  write
    : ∀ port byte,
        ((Port.write port byte).1 = .ok false ∧ image (Port.write port byte).2 = image port
            ∧ pauses (Port.write port byte).2 < pauses port)
          ∨ (Port.write (image port) byte
              = ((Port.write port byte).1, image (Port.write port byte).2)
            ∧ pauses (Port.write port byte).2 ≤ pauses port)

namespace Link

/-- The read of a link is a pause of its port. -/
def isPause (excused : ε → Bool) : Except (Failure ε) (Option FrameStatus) → Bool
  | .ok none => true
  | .ok (some _) | .error (.packet _) => false
  | .error (.port fault) => excused fault

-----------------------------------------------------------------------------------------
-- Pushes one after the other
-----------------------------------------------------------------------------------------

section Pushes

variable [Port P ε]

/-- It is all one to a push whether a byte is held or is still in the packet. -/
theorem push_of_same_byte {link : Link P} {packet next : Packet} {byte : WireByte}
    (offered : link.nextByte packet = .ok (byte, next))
    : ({ link with held := some byte } : Link P).push next = link.push packet := by
  have held : ({ link with held := some byte } : Link P).nextByte next = .ok (byte, next) := rfl
  rcases answered : Port.write link.port byte.value with ⟨fault | _ | _, port⟩
  · rw [push_of_failed held answered, push_of_failed offered answered]
  · rw [push_of_refused held answered, push_of_refused offered answered]
  · cases status : byte.status with
    | complete => rw [push_of_last held answered status, push_of_last offered answered status]
    | unfinished => rw [push_of_taken held answered status, push_of_taken offered answered status]

/-- One push, and the others if it leaves the frame unfinished. -/
theorem pushAll_succ (link : Link P) (packet : Packet) (patience : Nat)
    : link.pushAll packet (patience + 1)
      = match (link.push packet).result with
        | .ok .complete => ⟨some (.ok ()), (link.push packet).link, (link.push packet).packet⟩
        | .ok .unfinished => (link.push packet).link.pushAll (link.push packet).packet patience
        | .error e => ⟨some (.error e), (link.push packet).link, (link.push packet).packet⟩ := by
  rw [pushAll]
  rcases link.push packet with ⟨failure | _ | _, pushed, next⟩
  · rfl
  · rfl
  · rfl

/-- What is finished stays so with more patience, by induction on the patience. -/
theorem pushAll_of_finished {link : Link P} {packet : Packet} {patience more : Nat}
    (finished : (link.pushAll packet patience).result?.isSome = true) (enough : patience ≤ more)
    : link.pushAll packet more = link.pushAll packet patience := by
  induction patience generalizing link packet more with
  | zero => cases finished
  | succ patience ih =>
      obtain ⟨more, rfl⟩ := Nat.exists_eq_add_of_le' (Nat.le_trans (Nat.succ_pos patience) enough)
      rw [pushAll_succ] at finished ⊢
      rw [pushAll_succ]
      rcases answered : (link.push packet).result with failure | _ | _
      · rfl
      · rw [answered] at finished
        exact ih finished (Nat.le_of_succ_le_succ enough)
      · rfl

end Pushes

-----------------------------------------------------------------------------------------
-- Reading
-----------------------------------------------------------------------------------------

/-- A number of reads come to what fewer reads over the image of the port come to, but for
pauses. -/
structure ReadsAlike [Port P ε] [Port Q ε] (image : P → Q) (excused : ε → Bool) (link : Link P)
    (count fewer : Nat) : Prop where
  results
    : ((link.listened count).map Prod.fst).filter (!isPause excused ·)
      = (((link.onto image).listened fewer).map Prod.fst).filter (!isPause excused ·)
  delivered
    : Port.delivered (Port.reads link.port count).1
      = Port.delivered (Port.reads (image link.port) fewer).1
  behind : (link.behindReads count).onto image = (link.onto image).behindReads fewer

variable [Port P ε] [Port Q ε] {image : P → Q} {excused : ε → Bool} {pauses : P → Nat}

theorem readsAlike_zero (link : Link P)
    : link.ReadsAlike image excused 0 0 :=
  ⟨rfl, rfl, rfl⟩

/-- A pause goes before reads that come to the same. -/
theorem ReadsAlike.pause {link : Link P} {count fewer : Nat}
    (pauses : Port.isPause excused (Port.read link.port).1 = true)
    (kept : image (Port.read link.port).2 = image link.port)
    (h : link.receive.2.ReadsAlike image excused count fewer)
    : link.ReadsAlike image excused (count + 1) fewer := by
  have silent : isPause excused link.receive.1 = true
      ∧ Port.delivered [(Port.read link.port).1] = [] := by
    rcases answered : Port.read link.port with ⟨fault | _ | byte, port⟩
    · rw [answered] at pauses
      have given : link.receive.1 = .error (.port fault) := by simp only [receive, answered]
      exact ⟨by rw [given]; exact pauses, rfl⟩
    · exact ⟨by simp only [receive, answered, isPause], rfl⟩
    · rw [answered] at pauses
      cases pauses
  obtain ⟨same, -⟩ := receive_of_nothing silent.2
  have onto : link.receive.2.onto image = link.onto image := by
    rw [same]
    exact congrArg (fun port => { link with port }) kept
  obtain ⟨results, delivered, behind⟩ := h
  rw [onto] at results behind
  rw [port_receive, kept] at delivered
  refine ⟨?_, ?_, behind⟩
  · rw [listened, List.map_cons, List.filter_cons_of_neg (by simp [silent.1]), results]
  · rw [← delivered]
    rcases Port.delivered_cons (Port.read link.port).1 (Port.reads (Port.read link.port).2 count).1
      with ⟨_, none⟩ | ⟨byte, one, _⟩
    · exact none
    · rw [one] at pauses
      cases pauses

/-- A read that is answered alike goes before reads that come to the same. -/
theorem ReadsAlike.answer {link : Link P} {count fewer : Nat}
    (same : Port.read (image link.port)
      = ((Port.read link.port).1, image (Port.read link.port).2))
    (h : link.receive.2.ReadsAlike image excused count fewer)
    : link.ReadsAlike image excused (count + 1) (fewer + 1) := by
  have received := receive_onto_of_read same
  obtain ⟨results, delivered, behind⟩ := h
  rw [port_receive] at delivered
  refine ⟨?_, ?_, ?_⟩
  · simp only [listened, List.map_cons, List.filter_cons, received, results]
  · simp only [Port.reads, Port.delivered, List.filterMap_cons, same] at delivered ⊢
    rw [delivered]
  · rw [behindReads, behind, behindReads, received]

/-- Any reads come to what fewer reads come to without the pauses, by induction on the reads. -/
theorem exists_fewer_reads (calms : Port.Calms image excused pauses) (link : Link P) (count : Nat)
    : ∃ fewer ≤ count, link.ReadsAlike image excused count fewer := by
  induction count generalizing link with
  | zero => exact ⟨0, Nat.le_refl 0, link.readsAlike_zero⟩
  | succ count ih =>
      obtain ⟨fewer, within, alike⟩ := ih link.receive.2
      rcases calms.read link.port with ⟨paused, kept, _⟩ | ⟨same, _⟩
      · exact ⟨fewer, Nat.le_succ_of_le within, alike.pause paused kept⟩
      · exact ⟨fewer + 1, Nat.succ_le_succ within, alike.answer same⟩

/-- What reads come to without the pauses, more reads come to with them, by induction on the reads
and the pauses to come. -/
theorem exists_more_reads (calms : Port.Calms image excused pauses) (link : Link P) (fewer : Nat)
    : ∃ count ≤ fewer + pauses link.port, link.ReadsAlike image excused count fewer := by
  induction left : fewer + pauses link.port using Nat.strongRecOn generalizing link fewer with
  | ind left ih =>
      cases fewer with
      | zero => exact ⟨0, Nat.zero_le _, link.readsAlike_zero⟩
      | succ fewer =>
          have reached := link.port_receive
          rcases calms.read link.port with ⟨paused, kept, less⟩ | ⟨same, less⟩
          · rw [← reached] at less
            obtain ⟨count, within, alike⟩ := ih _ (by omega) link.receive.2 (fewer + 1) rfl
            exact ⟨count + 1, by omega, alike.pause paused kept⟩
          · rw [← reached] at less
            obtain ⟨count, within, alike⟩ := ih _ (by omega) link.receive.2 fewer rfl
            exact ⟨count + 1, by omega, alike.answer same⟩

-----------------------------------------------------------------------------------------
-- Writing
-----------------------------------------------------------------------------------------

/-- A link and a packet over the image of the port. -/
def Pushed.onto (image : P → Q) (pushed : Pushed P ε) : Pushed Q ε :=
  ⟨pushed.result, pushed.link.onto image, pushed.packet⟩

def Delivery.onto (image : P → Q) (delivery : Delivery P ε) : Delivery Q ε :=
  ⟨delivery.result?, delivery.link.onto image, delivery.packet⟩

/-- A push comes to what it comes to over the image of the port, or is broken off by a pause and
goes on there as if it had not been; by the recursion of a push. -/
theorem push_of_calms (calms : Port.Calms image excused pauses) (link : Link P) (packet : Packet)
    : let pushed := link.push packet
      (pushed.result = .ok .unfinished
          ∧ (link.onto image).push packet = (pushed.link.onto image).push pushed.packet
          ∧ pauses pushed.link.port < pauses link.port)
        ∨ ((link.onto image).push packet = pushed.onto image
          ∧ pauses pushed.link.port ≤ pauses link.port) := by
  have offer {link : Link P} {packet : Packet} {offered : Except Packet.Failure (WireByte × Packet)}
      (next : link.nextByte packet = offered)
      : (link.onto image).nextByte packet = offered := next
  have write {port after : P} {byte : UInt8} {answer : Except ε Bool}
      (answered : Port.write port byte = (answer, after))
      : (answer = .ok false ∧ image after = image port ∧ pauses after < pauses port)
        ∨ (Port.write (image port) byte = (answer, image after)
          ∧ pauses after ≤ pauses port) := by
    simpa only [answered] using calms.write port byte
  intro pushed
  simp only [pushed]
  clear pushed
  fun_induction Link.push link packet with
  | case1 link packet failure failed =>
      exact .inr ⟨push_of_no_byte (offer failed), Nat.le_refl _⟩
  | case2 link packet byte next offered fault port answered =>
      rcases write answered with ⟨refused, _⟩ | ⟨same, fewer⟩
      · cases refused
      · exact .inr ⟨push_of_failed (offer offered) same, fewer⟩
  | case3 link packet byte next offered port answered =>
      rcases write answered with ⟨_, kept, less⟩ | ⟨same, fewer⟩
      · refine .inl ⟨rfl, ?_, less⟩
        have again := push_of_same_byte (offer offered)
        simpa only [onto, kept] using again.symm
      · exact .inr ⟨push_of_refused (offer offered) same, fewer⟩
  | case4 link packet byte next offered port answered last =>
      rcases write answered with ⟨refused, _⟩ | ⟨same, fewer⟩
      · cases refused
      · exact .inr ⟨push_of_last (offer offered) same last, fewer⟩
  | case5 link packet byte next offered port answered more ih =>
      rcases write answered with ⟨refused, _⟩ | ⟨same, fewer⟩
      · cases refused
      · have taken := push_of_taken (offer offered) same more
        rcases ih with ⟨unfinished, broken, less⟩ | ⟨whole, less⟩
        · exact .inl ⟨unfinished, taken.trans broken, Nat.lt_of_lt_of_le less fewer⟩
        · exact .inr ⟨taken.trans whole, Nat.le_trans less fewer⟩

/-- A packet that is sent is sent without the pauses as well, by induction on the patience. -/
theorem pushAll_onto (calms : Port.Calms image excused pauses) {link : Link P} {packet : Packet}
    {patience : Nat} (finished : (link.pushAll packet patience).result?.isSome = true)
    : (link.onto image).pushAll packet patience = (link.pushAll packet patience).onto image := by
  induction patience generalizing link packet with
  | zero => cases finished
  | succ patience ih =>
      rw [pushAll_succ] at finished ⊢
      rcases link.push_of_calms calms packet with ⟨unfinished, broken, _⟩ | ⟨same, _⟩
      · simp only [unfinished] at finished
        have early := ih finished
        have ended : (((link.push packet).link.onto image).pushAll (link.push packet).packet
            patience).result?.isSome = true := by
          rw [early]
          exact finished
        rw [broken, ← pushAll_succ, pushAll_of_finished ended (Nat.le_succ patience), early,
          pushAll_succ]
        simp only [unfinished]
      · rw [pushAll_succ, same]
        simp only [Pushed.onto]
        rcases answered : (link.push packet).result with failure | _ | _
        · rfl
        · simp only [answered] at finished ⊢
          exact ih finished
        · rfl

/-- A packet that is sent without the pauses is sent with them as well, with more patience for
these; by induction on the patience and the pauses to come. -/
theorem exists_pushAll (calms : Port.Calms image excused pauses) (link : Link P) (packet : Packet)
    {patience : Nat} (finished : ((link.onto image).pushAll packet patience).result?.isSome = true)
    : ∃ more ≤ patience + pauses link.port,
        (link.pushAll packet more).onto image = (link.onto image).pushAll packet patience := by
  induction left : patience + pauses link.port using Nat.strongRecOn
    generalizing link packet patience with
  | ind left ih =>
      cases patience with
      | zero => cases finished
      | succ patience =>
          rcases link.push_of_calms calms packet with ⟨unfinished, broken, less⟩ | ⟨same, less⟩
          · have later : (link.onto image).pushAll packet (patience + 1)
                = ((link.push packet).link.onto image).pushAll (link.push packet).packet
                  (patience + 1) := by
              rw [pushAll_succ, broken, ← pushAll_succ]
            rw [later] at finished ⊢
            obtain ⟨more, within, sent⟩ := ih _ (by omega) _ _ finished rfl
            refine ⟨more + 1, by omega, ?_⟩
            rw [pushAll_succ, unfinished]
            exact sent
          · rw [pushAll_succ, same] at finished ⊢
            simp only [Pushed.onto] at finished ⊢
            rcases answered : (link.push packet).result with failure | _ | _
            · refine ⟨1, by omega, ?_⟩
              rw [pushAll_succ, answered]
              rfl
            · rw [answered] at finished
              obtain ⟨more, within, sent⟩ := ih _ (by omega) _ _ finished rfl
              refine ⟨more + 1, by omega, ?_⟩
              rw [pushAll_succ, answered]
              exact sent
            · refine ⟨1, by omega, ?_⟩
              rw [pushAll_succ, answered]
              rfl

theorem pushAll_of_onto (calms : Port.Calms image excused pauses) (link : Link P) (packet : Packet)
    {patience : Nat} (finished : ((link.onto image).pushAll packet patience).result?.isSome = true)
    : (link.pushAll packet (patience + pauses link.port)).onto image
      = (link.onto image).pushAll packet patience := by
  obtain ⟨more, within, sent⟩ := link.exists_pushAll calms packet finished
  have ended : (link.pushAll packet more).result?.isSome = true := by
    rw [← sent] at finished
    exact finished
  rw [pushAll_of_finished ended within, sent]

/-- By the packet, which may have no frame. -/
theorem send_onto (calms : Port.Calms image excused pauses) {link : Link P} {packet : Packet}
    {patience : Nat} (finished : (link.send packet patience).result?.isSome = true)
    : (link.onto image).send packet patience = (link.send packet patience).onto image := by
  rcases rewound : packet.rewind with failure | next
  · simp only [send, prepare, rewound]
    rfl
  · simp only [send, prepare, rewound] at finished ⊢
    exact pushAll_onto calms finished

/-- By the packet, which may have no frame. -/
theorem send_of_onto (calms : Port.Calms image excused pauses) (link : Link P) (packet : Packet)
    {patience : Nat} (finished : ((link.onto image).send packet patience).result?.isSome = true)
    : (link.send packet (patience + pauses link.port)).onto image
      = (link.onto image).send packet patience := by
  rcases rewound : packet.rewind with failure | next
  · simp only [send, prepare, rewound]
    rfl
  · simp only [send, prepare, rewound] at finished ⊢
    exact pushAll_of_onto calms { link with held := none } next finished

-----------------------------------------------------------------------------------------
-- Both
-----------------------------------------------------------------------------------------

/-- Over a port and over its image links receive and send the same, from wherever they begin, but
for reads that are pauses and for the number of reads and pushes. -/
structure OverlooksPauses (image : P → Q) (excused : ε → Bool) (pauses : P → Nat) : Prop where
  fewerReads
    : ∀ (link : Link P) (count : Nat),
        ∃ fewer ≤ count, link.ReadsAlike image excused count fewer
  moreReads
    : ∀ (link : Link P) (fewer : Nat),
        ∃ count ≤ fewer + pauses link.port, link.ReadsAlike image excused count fewer
  send
    : ∀ (link : Link P) (packet : Packet) (patience : Nat),
        (link.send packet patience).result?.isSome = true
        → (link.onto image).send packet patience = (link.send packet patience).onto image
  moreToSend
    : ∀ (link : Link P) (packet : Packet) (patience : Nat),
        ((link.onto image).send packet patience).result?.isSome = true
        → (link.send packet (patience + pauses link.port)).onto image
          = (link.onto image).send packet patience
  pushAll
    : ∀ (link : Link P) (packet : Packet) (patience : Nat),
        (link.pushAll packet patience).result?.isSome = true
        → (link.onto image).pushAll packet patience = (link.pushAll packet patience).onto image
  moreToPush
    : ∀ (link : Link P) (packet : Packet) (patience : Nat),
        ((link.onto image).pushAll packet patience).result?.isSome = true
        → (link.pushAll packet (patience + pauses link.port)).onto image
          = (link.onto image).pushAll packet patience

theorem overlooksPauses (calms : Port.Calms image excused pauses)
    : OverlooksPauses image excused pauses where
  fewerReads := exists_fewer_reads calms
  moreReads := exists_more_reads calms
  send _ _ _ := send_onto calms
  moreToSend link packet _ := send_of_onto calms link packet
  pushAll _ _ _ := pushAll_onto calms
  moreToPush link packet _ := pushAll_of_onto calms link packet

end Link

end PacketBus
