import Mathlib.Data.Nat.Bits
import MinNT.Lib.Ring
import MinNT.Lib.Transition

namespace MinNT.Keyboard

def scancodeToAscii : List Char :=
  [['\x00', '\x1b', '1', '2', '3', '4', '5', '6', '7', '8', '9', '0', '-', '=', '\x08'],
    ['\x09', 'q', 'w', 'e', 'r', 't', 'y', 'u', 'i', 'o', 'p', '[', ']', '\x0a'],
    ['\x00', 'a', 's', 'd', 'f', 'g', 'h', 'j', 'k', 'l', ';', '\x27', '\x60'],
    ['\x00', '\x5c', 'z', 'x', 'c', 'v', 'b', 'n', 'm', ',', '.', '/', '\x00'],
    ['*', '\x00', ' ', '\x00'],
    List.replicate 26 '\x00',
    ['-', '\x00', '\x00', '\x00', '+']].flatten

def scancodeToAsciiShift : List Char :=
  [['\x00', '\x1b', '!', '@', '#', '$', '%', '^', '&', '*', '(', ')', '_', '+', '\x08'],
    ['\x09', 'Q', 'W', 'E', 'R', 'T', 'Y', 'U', 'I', 'O', 'P', '\x7b', '\x7d', '\x0a'],
    ['\x00', 'A', 'S', 'D', 'F', 'G', 'H', 'J', 'K', 'L', ':', '\x22', '\x7e'],
    ['\x00', '|', 'Z', 'X', 'C', 'V', 'B', 'N', 'M', '<', '>', '?', '\x00'],
    ['*', '\x00', ' ', '\x00'],
    List.replicate 26 '\x00',
    ['-', '\x00', '\x00', '\x00', '+']].flatten

def extendedScancodeToAscii : List Char := List.replicate 12 '\x00' ++ ['\x0d']

/-- A table's entry; the rest of each table is zero. -/
def lookup (table : List Char) (scancode : UInt8) : UInt8 :=
  (table.getD scancode.toNat '\x00').toUInt8

/-- The keys that are held down, and whether an extended scancode was announced. -/
structure Keys where
  shift : Bool
  caps : Bool
  ctrl : Bool
  alt : Bool
  extended : Bool
  capsDown : Bool
deriving DecidableEq, Repr

/-- The keys behind a scancode. -/
def Keys.press (keys : Keys) (scancode : UInt8) : Keys :=
  if scancode = 0x2A ∨ scancode = 0x36 then { keys with shift := true }
  else if scancode = 0xAA ∨ scancode = 0xB6 then { keys with shift := false }
  else if scancode = 0x3A then
    if keys.capsDown then keys else { keys with caps := !keys.caps, capsDown := true }
  else if scancode = 0xAA then { keys with capsDown := false }
  else if scancode = 0x1D then { keys with ctrl := true }
  else if scancode = 0x9D then { keys with ctrl := false }
  else if scancode = 0x38 then { keys with alt := true }
  else if scancode = 0xB8 then { keys with alt := false }
  else keys

/-- The character of a scancode, zero if it has none. -/
def Keys.character (keys : Keys) (extended : Bool) (scancode : UInt8) : UInt8 :=
  if extended then lookup extendedScancodeToAscii scancode
  else
    let c := lookup (if keys.shift then scancodeToAsciiShift else scancodeToAscii) scancode
    if keys.caps ∧ 'a'.toUInt8 ≤ c ∧ c ≤ 'z'.toUInt8 then c - 32
    else if keys.caps ∧ 'A'.toUInt8 ≤ c ∧ c ≤ 'Z'.toUInt8 then c + 32
    else c

/-- `KiKeyboardInterrupt` up to the ring: the keys, and the character for the ring. -/
def scan (keys : Keys) (status scancode : UInt8) : Keys × Option UInt8 :=
  if status &&& 1 = 0 then (keys, none)
  else if scancode = 0xE0 then ({ keys with extended := true }, none)
  else
    let extended := keys.extended
    let keys := { keys with extended := false }.press scancode
    if keys.ctrl ∧ keys.alt ∧ extended ∧ scancode = 0x76 then (keys, none)
    else if scancode &&& 0x80 = 0 then
      let c := keys.character extended scancode
      if c = 0 then (keys, none) else (keys, some c)
    else (keys, none)

theorem scan_ne_zero {keys : Keys} {status scancode c : UInt8}
    (scanned : (scan keys status scancode).2 = some c) : c ≠ 0 := by
  unfold scan at scanned
  split at scanned
  · cases scanned
  split at scanned
  · cases scanned
  dsimp only at scanned
  split at scanned
  · cases scanned
  split at scanned
  · split at scanned
    · cases scanned
    case isFalse nonzero =>
      cases scanned
      exact nonzero
  · cases scanned

/-- Where `KiKeyboardInterrupt` is with a character. -/
inductive Handler where
  | idle
  /-- In front of the read of `KbdHead` for `next`. -/
  | next (c : UInt8)
  /-- In front of the read of `KbdTail`. -/
  | tail (c : UInt8) (next : Nat)
  /-- In front of the read of `KbdHead` for the slot. -/
  | slot (c : UInt8) (next : Nat)
  /-- In front of the write of the slot. -/
  | store (c : UInt8) (next index : Nat)
  /-- In front of the write of `KbdHead`. -/
  | publish (c : UInt8) (next : Nat)
deriving DecidableEq, Repr

/-- What the consumer is in. -/
inductive Call where
  | getChar
  | hasKey
deriving DecidableEq, Repr

/-- Where the consumer is. The operands of a test are read in either order; with the
first goes whether the ring was empty when it was read. -/
inductive Consumer where
  | idle
  | test (call : Call) (headFirst : Bool)
  | headRead (call : Call) (head : Nat) (empty : Bool)
  | tailRead (call : Call) (tail : Nat) (empty : Bool)
  /-- In front of the read of `KbdTail` for the slot. -/
  | slot
  /-- In front of the read of the slot. -/
  | read (index : Nat)
  /-- In front of the read of `KbdTail` for the next one. -/
  | next (c : UInt8)
  /-- In front of the write of `KbdTail`. -/
  | release (c : UInt8) (next : Nat)
deriving DecidableEq, Repr

/-- The keyboard and both sides of its ring. The last three fields record the
characters shown in the ring, what each `HalpKbdGetChar` returned, with whether the ring
was empty at its test, and for each dropped character how many were unread. -/
structure State where
  kbdBuffer : Nat → UInt8
  kbdHead : Nat
  kbdTail : Nat
  keys : Keys
  handler : Handler
  consumer : Consumer
  accepted : List UInt8
  returned : List (UInt8 × Bool)
  dropped : List (UInt8 × Nat)

/-- The characters that `HalpKbdGetChar` has returned. -/
def State.characters (s : State) : List UInt8 :=
  (s.returned.map Prod.fst).filter (· ≠ 0)

def State.unread (s : State) : Nat := s.accepted.length - s.characters.length

def nextIndex (index : Nat) : Nat := (index + 1) &&& 0xFF

/-- `KiKeyboardInterrupt` is entered. -/
def interrupt (s : State) (status scancode : UInt8) : Option State :=
  if s.handler = .idle then
    match scan s.keys status scancode with
    | (keys, none) => some { s with keys := keys }
    | (keys, some c) => some { s with keys := keys, handler := .next c }
  else none

/-- One memory access of `KiKeyboardInterrupt`. -/
def handlerStep (s : State) : Option State :=
  match s.handler with
  | .idle => none
  | .next c => some { s with handler := .tail c (nextIndex s.kbdHead) }
  | .tail c next =>
      if next ≠ s.kbdTail then some { s with handler := .slot c next }
      else some { s with handler := .idle, dropped := s.dropped ++ [(c, s.unread)] }
  | .slot c next => some { s with handler := .store c next s.kbdHead }
  | .store c next index =>
      some { s with
        kbdBuffer := Function.update s.kbdBuffer index c
        handler := .publish c next }
  | .publish c next =>
      some { s with kbdHead := next, handler := .idle, accepted := s.accepted ++ [c] }

/-- The test whether the ring is empty has been made. -/
def State.tested (s : State) (call : Call) (same empty : Bool) : State :=
  match call with
  | .hasKey => { s with consumer := .idle }
  | .getChar =>
      if same then { s with consumer := .idle, returned := s.returned ++ [(0, empty)] }
      else { s with consumer := .slot }

/-- `HalpKbdGetChar` or `HalpKbdHasKey` is entered. -/
def enter (s : State) (call : Call) (headFirst : Bool) : Option State :=
  if s.consumer = .idle then some { s with consumer := .test call headFirst } else none

/-- One memory access of the consumer. -/
def consumerStep (s : State) : Option State :=
  let empty := s.kbdHead == s.kbdTail
  match s.consumer with
  | .idle => none
  | .test call true => some { s with consumer := .headRead call s.kbdHead empty }
  | .test call false => some { s with consumer := .tailRead call s.kbdTail empty }
  | .headRead call head before => some (s.tested call (head == s.kbdTail) (before || empty))
  | .tailRead call tail before => some (s.tested call (s.kbdHead == tail) (before || empty))
  | .slot => some { s with consumer := .read s.kbdTail }
  | .read index => some { s with consumer := .next (s.kbdBuffer index) }
  | .next c => some { s with consumer := .release c (nextIndex s.kbdTail) }
  | .release c next =>
      some { s with
        kbdTail := next
        consumer := .idle
        returned := s.returned ++ [(c, false)] }

inductive Label where
  | interrupt (status scancode : UInt8)
  | handler
  | enter (call : Call) (headFirst : Bool)
  | consumer
deriving DecidableEq, Repr

def step (s : State) : Label → Option State
  | .interrupt status scancode => interrupt s status scancode
  | .handler => handlerStep s
  | .enter call headFirst => enter s call headFirst
  | .consumer => consumerStep s

def halpKbdInit : State where
  kbdBuffer := fun _ => 0
  kbdHead := 0
  kbdTail := 0
  keys := ⟨false, false, false, false, false, false⟩
  handler := .idle
  consumer := .idle
  accepted := []
  returned := []
  dropped := []

end MinNT.Keyboard
