import PacketBus.Port

/-! The record of a port: what it was asked, and what it answered.
A port that keeps its record answers as the port inside it does, so what goes over any port can be
told by the calls made of it.
-/

namespace PacketBus

instance decEqExcept {ε α : Type} [DecidableEq ε] [DecidableEq α] : DecidableEq (Except ε α)
  | .ok value, .ok other => decidable_of_iff (value = other) (by simp)
  | .error fault, .error other => decidable_of_iff (fault = other) (by simp)
  | .ok _, .error _ | .error _, .ok _ => isFalse nofun

/-- Whatever calls that move bytes are made of a port, it stands in the relation to what it was. -/
structure Port.Keeps {P ε : Type} [Port P ε] (Rel : P → P → Prop) : Prop where
  refl : ∀ port, Rel port port
  trans : ∀ {first second third}, Rel first second → Rel second third → Rel first third
  read : ∀ port, Rel port (Port.read port).2
  write : ∀ port byte, Rel port (Port.write port byte).2

/-- A call that moves a byte, with the answer of the port. -/
inductive Port.Call (ε : Type) where
  | read (answer : Except ε (Option UInt8))
  | write (byte : UInt8) (answer : Except ε Bool)
  deriving DecidableEq

namespace Port.Call

variable {ε : Type}

/-- The byte that came with a read. -/
@[simp] def delivered? : Call ε → Option UInt8
  | read (.ok byte?) => byte?
  | read (.error _) | write _ _ => none

/-- The byte of a write that the port took. -/
@[simp] def accepted? : Call ε → Option UInt8
  | write byte (.ok true) => some byte
  | write _ (.ok false) | write _ (.error _) | read _ => none

/-- The byte of a write on which the port failed. -/
@[simp] def lost? : Call ε → Option UInt8
  | write byte (.error _) => some byte
  | write _ (.ok _) | read _ => none

/-- The byte of a write that the port took or failed on; one that it refused is offered again. -/
@[simp] def released? : Call ε → Option UInt8
  | write byte (.ok true) | write byte (.error _) => some byte
  | write _ (.ok false) | read _ => none

/-- The fault with which the port answered. -/
@[simp] def fault? : Call ε → Option ε
  | read (.error fault) | write _ (.error fault) => some fault
  | read (.ok _) | write _ (.ok _) => none

/-- The call offers a byte and reads nothing. -/
def IsWrite : Call ε → Prop
  | write _ _ => True
  | read _ => False

/-- The bytes that came with reads since a byte was last offered. -/
def heard (calls : List (Call ε)) : List UInt8 :=
  calls.foldl (fun bytes call =>
    match call with
    | read answer => bytes ++ (delivered? (read answer)).toList
    | write _ _ => []) []

theorem heard_append_read (calls : List (Call ε)) (answer : Except ε (Option UInt8))
    : heard (calls ++ [read answer]) = heard calls ++ (delivered? (read answer)).toList := by
  simp [heard]

/-- What was heard before an offer counts no more. -/
theorem heard_append_writes (calls : List (Call ε)) {more : List (Call ε)} (some : more ≠ [])
    (writes : ∀ call ∈ more, call.IsWrite)
    : heard (calls ++ more) = [] := by
  obtain ⟨front, last, rfl⟩ : ∃ front last, more = front ++ [last] :=
    ⟨_, _, (List.dropLast_concat_getLast some).symm⟩
  cases last with
  | read answer => exact absurd (writes (read answer) (by simp)) id
  | write byte answer => simp [heard]

/-- The writes of bytes that the port took one after the other. -/
def accepts (bytes : List UInt8) : List (Call ε) :=
  bytes.map fun byte => write byte (.ok true)

@[simp] theorem filterMap_accepted?_accepts (bytes : List UInt8)
    : (accepts bytes : List (Call ε)).filterMap accepted? = bytes := by
  simp [accepts, Function.comp_def]

@[simp] theorem filterMap_released?_accepts (bytes : List UInt8)
    : (accepts bytes : List (Call ε)).filterMap released? = bytes := by
  simp [accepts, Function.comp_def]

@[simp] theorem filterMap_lost?_accepts (bytes : List UInt8)
    : (accepts bytes : List (Call ε)).filterMap lost? = [] := by
  simp [accepts, Function.comp_def]

@[simp] theorem filterMap_delivered?_accepts (bytes : List UInt8)
    : (accepts bytes : List (Call ε)).filterMap delivered? = [] := by
  simp [accepts, Function.comp_def]

@[simp] theorem filterMap_fault?_accepts (bytes : List UInt8)
    : (accepts bytes : List (Call ε)).filterMap fault? = [] := by
  simp [accepts, Function.comp_def]

@[simp] theorem refused_not_mem_accepts (byte : UInt8) (bytes : List UInt8)
    : (write byte (.ok false) : Call ε) ∉ accepts bytes := by
  simp [accepts]

/-- A byte that is released is taken or lost, by induction on the calls. -/
theorem length_released (calls : List (Call ε))
    : (calls.filterMap released?).length
      = (calls.filterMap accepted?).length + (calls.filterMap lost?).length := by
  induction calls with
  | nil => rfl
  | cons call rest ih =>
      rcases call with _ | ⟨byte, _ | _ | _⟩
      · exact ih
      · simp only [List.filterMap_cons, released?, accepted?, lost?, List.length_cons, ih]
        omega
      · exact ih
      · simp only [List.filterMap_cons, released?, accepted?, lost?, List.length_cons, ih]
        omega

/-- Where nothing is lost, all that is released is taken. -/
theorem accepted_eq_released {calls : List (Call ε)} (kept : calls.filterMap lost? = [])
    : calls.filterMap accepted? = calls.filterMap released? := by
  induction calls with
  | nil => rfl
  | cons call rest ih =>
      rcases call with _ | ⟨byte, _ | _ | _⟩
      · exact ih kept
      · cases kept
      · exact ih kept
      · exact congrArg (byte :: ·) (ih kept)

end Port.Call

/-- A port with its record. -/
structure RecordedPort (P ε : Type) where
  port : P
  /-- The calls made so far, in order. -/
  calls : List (Port.Call ε) := []

namespace RecordedPort

variable {P ε : Type}

/-- The bytes read so far. -/
def delivered (p : RecordedPort P ε) : List UInt8 := p.calls.filterMap Port.Call.delivered?

/-- The bytes that the port took so far. -/
def accepted (p : RecordedPort P ε) : List UInt8 := p.calls.filterMap Port.Call.accepted?

/-- The bytes on which the port failed so far. -/
def lost (p : RecordedPort P ε) : List UInt8 := p.calls.filterMap Port.Call.lost?

/-- The bytes read since a byte was last offered. -/
def heard (p : RecordedPort P ε) : List UInt8 := Port.Call.heard p.calls

/-- The bytes that the port took or failed on so far. -/
def released (p : RecordedPort P ε) : List UInt8 := p.calls.filterMap Port.Call.released?

instance [Port P ε] : Port (RecordedPort P ε) ε where
  canRead p := ((Port.canRead p.port).1, { p with port := (Port.canRead p.port).2 })
  read p :=
    let (answer, port) := Port.read p.port
    (answer, ⟨port, p.calls ++ [.read answer]⟩)
  canWrite p := ((Port.canWrite p.port).1, { p with port := (Port.canWrite p.port).2 })
  write p byte :=
    let (answer, port) := Port.write p.port byte
    (answer, ⟨port, p.calls ++ [.write byte answer]⟩)

theorem calls_read [Port P ε] (p : RecordedPort P ε)
    : (Port.read p).2.calls = p.calls ++ [.read (Port.read p).1] := rfl

@[simp] theorem accepted_read [Port P ε] (p : RecordedPort P ε)
    : (Port.read p).2.accepted = p.accepted := by
  simp [accepted, calls_read, List.filterMap_cons]

theorem calls_write [Port P ε] (p : RecordedPort P ε) (byte : UInt8)
    : (Port.write p byte).2.calls = p.calls ++ [.write byte (Port.write p byte).1] := rfl

theorem delivered_read [Port P ε] (p : RecordedPort P ε)
    : (Port.read p).2.delivered
      = p.delivered ++ (Port.Call.delivered? (.read (Port.read p.port).1)).toList := by
  rw [delivered, calls_read, List.filterMap_append]
  rfl

theorem delivered_write [Port P ε] (p : RecordedPort P ε) (byte : UInt8)
    : (Port.write p byte).2.delivered = p.delivered := by
  rw [delivered, calls_write, List.filterMap_append]
  exact List.append_nil _

theorem accepted_write [Port P ε] (p : RecordedPort P ε) (byte : UInt8)
    : (Port.write p byte).2.accepted
      = p.accepted
        ++ (Port.Call.accepted? (.write byte (Port.write p.port byte).1)).toList := by
  rw [accepted, calls_write, List.filterMap_append]
  rfl

theorem unfailed_read [Port P ε] {p : RecordedPort P ε} {byte? : Option UInt8}
    (unfailed : p.calls.filterMap Port.Call.fault? = []) (answered : (Port.read p).1 = .ok byte?)
    : (Port.read p).2.calls.filterMap Port.Call.fault? = [] := by
  simp [calls_read, answered, unfailed, List.filterMap_cons]

theorem heard_read [Port P ε] {p : RecordedPort P ε} {answer : Except ε (Option UInt8)}
    (answered : (Port.read p).1 = answer)
    : (Port.read p).2.heard = p.heard ++ (Port.Call.delivered? (.read answer)).toList := by
  rw [heard, calls_read, answered]
  exact Port.Call.heard_append_read p.calls answer

/-- A record only grows. -/
theorem keeps_calls [Port P ε]
    : Port.Keeps fun before after : RecordedPort P ε =>
        ∃ more, after.calls = before.calls ++ more where
  refl port := ⟨[], (List.append_nil _).symm⟩
  trans := by
    rintro first second third ⟨early, grown⟩ ⟨late, grown'⟩
    exact ⟨early ++ late, by rw [grown', grown, List.append_assoc]⟩
  read port := ⟨_, rfl⟩
  write port byte := ⟨_, rfl⟩

/-- Lets something happen to the port that is no call of it. -/
def adjust (p : RecordedPort P ε) (change : P → P) : RecordedPort P ε :=
  { p with port := change p.port }

end RecordedPort

end PacketBus
