import Ambient.Failure

/-!
# Hosts

The host of an address may be an address of the network layer between brackets.  A bracket has a
counterpart, what the brackets enclose is an address of version six or of a later one, and no
character stands for one of the marks that delimit a host.
-/

namespace Ambient

namespace Host

/-! ### Network addresses -/

/-- Whether a text is one of the four numbers of an address of version four. -/
def isOctet (t : Text) : Bool :=
  t.all Char.isDigit
    && match t with
      | [] => false
      | [_] => true
      | c :: _ => c ≠ '0' && t.length ≤ 3 && Text.digitsValue t ≤ 255

/-- Whether a text is an address of version four. -/
def isFour (t : Text) : Bool :=
  let parts := Text.splitAt '.' t
  parts.length = 4 && parts.all isOctet

/-- Whether a text is one of the groups of an address of version six. -/
def isGroup (t : Text) : Bool :=
  !t.isEmpty && t.length ≤ 4 && t.all fun c => (Text.hexDigit? c).isSome

/-- The groups of an address of version six; an address of version four at the end stands for two. -/
def groups? (t : Text) : Option (List Text) :=
  let parts := Text.splitAt ':' t
  match parts.getLast? with
  | some last =>
    if last.contains '.' then
      if isFour last then some (parts.dropLast ++ [['0'], ['0']]) else none
    else some parts
  | none => none

/-- Whether the groups on one side of a gap are complete; next to the gap may be the end. -/
def isSide (groups : List Text) : Bool :=
  groups = [[]] || groups.all isGroup

/-- Whether groups make an address of version six: eight of them, or fewer around one gap. -/
def areGroups (groups : List Text) : Bool :=
  if groups.length > 9 then false
  else
    let inner := (List.range groups.length).filter fun i =>
      0 < i && i + 1 < groups.length && (groups.getD i []).isEmpty
    match inner with
    | [] => groups.length = 8 && groups.all isGroup
    | [i] =>
      let before := groups.take i
      let after := groups.drop (i + 1)
      let count (side : List Text) : Nat := if side = [[]] then 0 else side.length
      isSide before && isSide after && count before + count after < 8
    | _ => false

/-- Whether a text is an address of version six, with or without a zone. -/
def isSix (t : Text) : Bool :=
  let (address, zone) := Text.cutAt '%' t
  !t.contains '/' && zone.elim true (fun z => !z.isEmpty && !z.contains '%')
    && 3 ≤ (Text.splitAt ':' address).length && (groups? address).elim false areGroups

/-- Whether a text is an address of a version after six, which names the version first. -/
def isLater (t : Text) : Bool :=
  match t with
  | 'v' :: rest =>
    match Text.cutAt '.' rest with
    | (version, some address) =>
      !version.isEmpty && version.all (fun c => (Text.hexDigit? c).isSome)
        && address.head?.elim false (· ≠ '\n')
    | _ => false
  | _ => false

/-! ### Faults -/

/-- What is wrong with an address between brackets. -/
def bracketFault? (t : Text) : Option AddressFault :=
  if t.head? = some 'v' then if isLater t then none else some .badVersion
  else if isFour t then some .bracketed
  else if isSix t then none
  else some (.noAddress t)

/-- What is wrong with the brackets of a host. -/
def bracketsFault? (t : Text) : Option AddressFault :=
  match t.contains '[', t.contains ']' with
  | false, false => none
  | true, true =>
    bracketFault? (Text.cutAt ']' ((Text.cutAt '[' t).2.getD [])).1
  | _, _ => some .unbalanced

/-- The characters that stand for a delimiter: width variants of one, or signs that hold one. -/
def hiddenDelimiters : List Nat := [
  0x2047, 0x2048, 0x2049, 0x2100, 0x2101, 0x2105, 0x2106, 0x2A74, 0xFE13, 0xFE16, 0xFE55, 0xFE56,
  0xFE5F, 0xFE6B, 0xFF03, 0xFF0F, 0xFF1A, 0xFF1F, 0xFF20]

/-- What is wrong with the characters of a host. -/
def characterFault? (t : Text) : Option AddressFault :=
  if t.any fun c => hiddenDelimiters.contains c.toNat then some (.hiddenDelimiter t) else none

end Host

end Ambient
