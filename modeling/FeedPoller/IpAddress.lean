import FeedPoller.Text.Number

/-! IP addresses in text. -/

namespace FeedPoller

inductive IpAddress where
  | v4 (parts : List Nat)
  | v6 (groups : List Nat)
  deriving DecidableEq, Repr

namespace IpAddress

/-- A decimal number below 256 without needless leading zeros. -/
def octet? (cs : List Char) : Option Nat := do
  let n ← Text.nat? cs
  if n < 256 ∧ cs.length ≤ 3 ∧ (cs.length = 1 ∨ cs.head? ≠ some '0') then some n else none

/-- Four numbers with points between them. -/
def v4? (cs : List Char) : Option (List Nat) :=
  match (cs.splitOn '.').mapM octet? with
  | some [a, b, c, d] => some [a, b, c, d]
  | _ => none

def group? (cs : List Char) : Option Nat :=
  if 4 < cs.length then none else Text.natInBase? 16 cs

/-- Groups of 16 bits between colons; the last may be an IPv4 address of two groups. -/
def groups? : List (List Char) → Option (List Nat)
  | [] => some []
  | [last] =>
    match v4? last with
    | some [a, b, c, d] => some [256 * a + b, 256 * c + d]
    | _ => (fun n => [n]) <$> group? last
  | g :: rest => do return (← group? g) :: (← groups? rest)

/-- The groups on one side of a double colon, where there may be none. -/
def side? (read : List (List Char) → Option (List Nat)) (cs : List Char) : Option (List Nat) :=
  if cs.isEmpty then some [] else read (cs.splitOn ':')

/-- The parts before and after the first double colon. -/
def splitGap : List Char → Option (List Char × List Char)
  | ':' :: ':' :: cs => some ([], cs)
  | c :: cs => (fun (a, b) => (c :: a, b)) <$> splitGap cs
  | [] => none

/-- Eight groups, a run of zero groups left out once. -/
def v6? (cs : List Char) : Option (List Nat) := do
  match splitGap cs with
  | none =>
    let gs ← groups? (cs.splitOn ':')
    if gs.length = 8 then some gs else none
  | some (before, after) =>
    let xs ← side? (·.mapM group?) before
    let ys ← side? groups? after
    if xs.length + ys.length < 8 then
      return xs ++ List.replicate (8 - xs.length - ys.length) 0 ++ ys
    none

end IpAddress

/-! ## Addresses with a port -/

structure SocketAddress where
  ip : IpAddress
  port : Nat
  deriving DecidableEq, Repr

namespace SocketAddress

def port? (cs : List Char) : Option Nat := do
  let n ← Text.nat? cs
  if n < 65536 then some n else none

/-- An IPv4 address, or an IPv6 address in brackets, then a colon and the port. -/
def ofString? (s : String) : Option SocketAddress :=
  match s.toList with
  | '[' :: cs => do
    match cs.dropWhile (· != ']') with
    | ']' :: ':' :: port =>
      return ⟨.v6 (← IpAddress.v6? (cs.takeWhile (· != ']'))), ← port? port⟩
    | _ => none
  | cs => do
    match cs.splitOn ':' with
    | [ip, port] => return ⟨.v4 (← IpAddress.v4? ip), ← port? port⟩
    | _ => none

end SocketAddress
end FeedPoller
