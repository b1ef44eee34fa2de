import ObsBeacon.Libobs

/-! Annex-B helpers of the packet probe: start codes, the read-only description of an
access unit, and emulation prevention. -/
namespace ObsBeacon.PacketProbe

/-- The test `find_start_code` makes at offset `i`: the length of the start code there. -/
def startCodeAt (d : List UInt8) (i : ℕ) : Option ℕ :=
  if d[i]? = some 0 ∧ d[i + 1]? = some 0 then
    if d[i + 2]? = some 1 then some 3
    else if i + 4 ≤ d.length ∧ d[i + 2]? = some 0 ∧ d[i + 3]? = some 1 then some 4
    else none
  else none

def findStartCodeLoop (d : List UInt8) : ℕ → ℕ → ℕ × Option ℕ
  | 0, _ => (d.length, none)
  | fuel + 1, i =>
    if i + 3 ≤ d.length then
      match startCodeAt d i with
      | some len => (i, some len)
      | none => findStartCodeLoop d fuel (i + 1)
    else (d.length, none)

/-- `find_start_code`: the offset it returns and the length it writes, if any. The loop
moves one byte a turn, so the fuel never runs out before the offset reaches the end. -/
def findStartCode (d : List UInt8) (start : ℕ) : ℕ × Option ℕ :=
  findStartCodeLoop d (d.length + 1 - start) start

/-- What `describe_annexb` prints: the first start code's length, the listed units with
their type and length, and whether a listed unit is an SEI. -/
inductive AnnexbDescription where
  | empty
  | noStartCode
  | units (sc : ℕ) (nals : List (ℕ × ℕ)) (hasSei : Bool)
  deriving DecidableEq, Repr

/-- The listing loop, with the number of units it may still list. -/
def describeLoop (d : List UInt8) : ℕ → ℕ → List (ℕ × ℕ)
  | 0, _ => []
  | left + 1, p =>
    if p < d.length then
      let thisSc :=
        if p + 3 ≤ d.length ∧ d[p]? = some 0 ∧ d[p + 1]? = some 0 ∧ d[p + 2]? = some 1
        then 3 else 4
      let nal := p + thisSc
      match d[nal]? with
      | none => []
      | some header =>
        let next := (findStartCode d nal).1
        (header.toNat % 32, next - nal) :: describeLoop d left next
    else []

def describeAnnexb (d : List UInt8) : AnnexbDescription :=
  if d.length < 4 then .empty
  else
    match findStartCode d 0 with
    | (_, none) => .noStartCode
    | (p, some sc) =>
      let nals := describeLoop d 16 p
      .units sc nals (nals.any fun u => u.1 == 6)

/-- The loop of `epb_escape`, with its running count of zero bytes. -/
def epbEscapeLoop : ℕ → List UInt8 → List UInt8
  | _, [] => []
  | zeros, b :: bs =>
    if 2 ≤ zeros ∧ b ≤ 3 then 3 :: b :: epbEscapeLoop (if b = 0 then 1 else 0) bs
    else b :: epbEscapeLoop (if b = 0 then zeros + 1 else 0) bs

def epbEscape (rbsp : List UInt8) : List UInt8 := epbEscapeLoop 0 rbsp

end ObsBeacon.PacketProbe
