/-!
# Bounded channels

Messages in the order in which they were sent, and the room left for more.
-/

namespace SchedulerLearning

structure Channel (τ : Type) where
  /-- The oldest messages, in order. -/
  front : List τ
  /-- The newest messages, latest first. -/
  back : List τ
  /-- How many more messages there is room for. -/
  room : Nat
  deriving Repr

namespace Channel

variable {τ : Type}

def ofRoom (room : Nat) : Channel τ := ⟨[], [], room⟩

/-- The messages, oldest first. -/
def toList (c : Channel τ) : List τ := c.front ++ c.back.reverse

def hasRoom (c : Channel τ) : Bool := c.room ≠ 0

/-- Sends a message. A sender waits until there is room. -/
def send (c : Channel τ) (message : τ) : Channel τ :=
  { c with back := message :: c.back, room := c.room - 1 }

def receive? (c : Channel τ) : Option (τ × Channel τ) :=
  match c.front with
  | message :: rest => some (message, { c with front := rest, room := c.room + 1 })
  | [] =>
    match c.back.reverse with
    | [] => none
    | message :: rest => some (message, ⟨rest, [], c.room + 1⟩)

@[simp] theorem toList_ofRoom (room : Nat) : (ofRoom room : Channel τ).toList = [] := rfl

@[simp] theorem toList_send (c : Channel τ) (message : τ) :
    (c.send message).toList = c.toList ++ [message] := by
  simp [toList, send]

theorem length_add_room_send {c : Channel τ} (message : τ) (h : c.hasRoom) :
    (c.send message).toList.length + (c.send message).room = c.toList.length + c.room := by
  have : c.room ≠ 0 := by simpa [hasRoom] using h
  simp [toList_send]
  simp [send]
  omega

theorem toList_receive {c d : Channel τ} {message : τ} (h : c.receive? = some (message, d)) :
    c.toList = message :: d.toList := by
  rcases c with ⟨front, back, room⟩
  unfold receive? at h
  cases front with
  | cons m rest =>
    simp only [Option.some.injEq, Prod.mk.injEq] at h
    obtain ⟨rfl, rfl⟩ := h
    rfl
  | nil =>
    simp only at h
    split at h
    · contradiction
    · next m rest hb =>
      simp only [Option.some.injEq, Prod.mk.injEq] at h
      obtain ⟨rfl, rfl⟩ := h
      simp [toList, hb]

theorem receive_eq_none {c : Channel τ} : c.receive? = none ↔ c.toList = [] := by
  rcases c with ⟨front, back, room⟩
  cases front with
  | cons m rest => simp [receive?, toList]
  | nil =>
    cases h : back.reverse with
    | nil => simp [receive?, toList, h]
    | cons m rest => simp [receive?, toList, h]

end Channel

end SchedulerLearning
