import QueryGateway.Address.Internet
import QueryGateway.Uri.DomainName
import QueryGateway.Uri.Percent

/-!
# Hosts

A host is an internet address or a name.  Under the common schemes a name is a
domain name, and one whose last label is a number has to be an address of
version 4, in any of the spellings such addresses have.  Under other schemes a
name is any text without delimiters.
-/

namespace QueryGateway.Uri

/-- Why a text is not a URL. -/
inductive UrlError where
  | emptyHost
  | invalidPort
  | invalidVersion4
  | invalidVersion6
  | invalidDomainName
  | invalidHostCharacter
  /-- A relative reference to a base that has no hierarchy. -/
  | noHierarchy
  /-- A relative reference without a base. -/
  | noBase
deriving DecidableEq, Repr

/-- The error in words. -/
def UrlError.message : UrlError → String
  | .emptyHost => "empty host"
  | .invalidPort => "invalid port number"
  | .invalidVersion4 => "invalid IPv4 address"
  | .invalidVersion6 => "invalid IPv6 address"
  | .invalidDomainName => "invalid international domain name"
  | .invalidHostCharacter => "invalid domain character"
  | .noHierarchy => "relative URL with a cannot-be-a-base base"
  | .noBase => "relative URL without a base"

/-- A host. -/
inductive Host where
  | name (text : String)
  | version4 (octets : List Nat)
  | version6 (groups : List Nat)
deriving DecidableEq, Repr

namespace Host

/-- A host in a URL. -/
def render : Host → String
  | .name text => text
  | .version4 octets => Address.version4Text octets
  | .version6 groups => "[" ++ Address.version6Text groups ++ "]"

/-! ## Addresses of version 4 in any spelling -/

/-- A number in octal, decimal or hexadecimal digits, as its front tells. -/
def number? (text : List Char) : Option Nat :=
  let digits (isDigit : Char → Bool) (radix : Nat) (text : List Char) : Option Nat :=
    if text.all isDigit then
      some (text.foldl (fun total digit => total * radix + (Digits.hexValue? digit).getD 0) 0)
    else
      none
  match text with
  | [] => none
  | '0' :: 'x' :: rest | '0' :: 'X' :: rest =>
      digits (fun character => (Digits.hexValue? character).isSome) 16 rest
  | '0' :: digit :: rest =>
      digits (fun character => '0' ≤ character && character ≤ '7') 8 (digit :: rest)
  | text => digits Char.isDigit 10 text

/-- The labels of a name; a full stop at its end starts no label. -/
def labels (name : List Char) : List (List Char) :=
  let parts := name.splitOnP (· == '.')
  if parts.length > 1 && parts.getLast? == some [] then parts.dropLast else parts

/-- Is the last label a number? -/
def endsInNumber (name : List Char) : Bool :=
  match (labels name).getLast? with
  | none => false
  | some label => (!label.isEmpty && label.all Char.isDigit) || (number? label).isSome

/-- The octets of a number, the last `count` ones of four. -/
def octets (count value : Nat) : List Nat :=
  (List.range count).map fun index => value / Nat.pow 256 (count - 1 - index) % 256

/--
An address of version 4.  Every number but the last one is an octet; the last
one stands for all octets that are left.
-/
def version4? (name : List Char) : Option (List Nat) := do
  let numbers ← (labels name).mapM number?
  let front := numbers.dropLast
  let last ← numbers.getLast?
  if numbers.length ≤ 4 && front.all (· < 256) && last < Nat.pow 256 (4 - front.length) then
    return front ++ octets (4 - front.length) last
  else
    none

/-! ## Reading hosts -/

/-- An address of version 6, after its opening bracket. -/
def bracketed? (text : List Char) : Option Host :=
  match Address.version6 text with
  | some (groups, [']']) => some (.version6 groups)
  | _ => none

/-- The host that a text is under a common scheme. -/
def ofDomain (text : List Char) : Except UrlError Host :=
  match text with
  | '[' :: rest => (bracketed? rest).elim (.error .invalidVersion6) .ok
  | _ =>
      match (Utf8.decode? (unescape (Utf8.encode text))).bind DomainName.ascii? with
      | none => .error .invalidDomainName
      | some domain =>
          if domain.isEmpty then
            .error .emptyHost
          else if endsInNumber domain.toList then
            (version4? domain.toList).elim (.error .invalidVersion4) (.ok ∘ .version4)
          else
            .ok (.name domain)

/-- Does the character delimit, so that it may not stand in a host of any scheme? -/
def isDelimiter (character : Char) : Bool :=
  character.toNat == 0 || " \t\n\r#/:<>?@[\\]^|".toList.contains character

/-- Is the character visible ASCII or a space? -/
def isPrintable (character : Char) : Bool :=
  0x20 ≤ character.toNat && character.toNat < 0x7F

/-- The host that a text is under another scheme. -/
def ofText (text : List Char) : Except UrlError Host :=
  match text with
  | '[' :: rest => (bracketed? rest).elim (.error .invalidVersion6) .ok
  | _ =>
      if text.any isDelimiter then
        .error .invalidHostCharacter
      else
        .ok (.name (String.ofList (escape isPrintable text)))

end Host

end QueryGateway.Uri
