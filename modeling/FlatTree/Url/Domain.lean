import FlatTree.Text.Composed
import FlatTree.Url.Domain.Direction
import FlatTree.Url.Domain.Joiner
import FlatTree.Url.Domain.Mapping
import FlatTree.Url.Punycode

/-!
# Domain names

Domain names in ASCII. The characters of a name are replaced by those that they stand for and then
composed, after which the name is split into labels. A label with other than ASCII characters is
written in Punycode after `xn--`; a label that starts so already must be such an encoding.

- `Domain.shown?`: the characters that a label shows.
- `Domain.isValidLabel`: the rules for these characters.
- `Domain.toAscii?`: the name in ASCII, if it is one.
-/

namespace FlatTree.Domain

/-- All characters are ASCII. -/
def isAscii (label : List Char) : Bool := label.all fun c => c.toNat < 128

/-- ASCII characters that no name may hold: controls, the space, and what means something else in a
URL. -/
def isForbidden (c : Char) : Bool :=
  c ≤ ' ' || c = '\x7f' || "%#/:<>?@[\\]^|".contains c

/-- What stands before a label in Punycode. -/
def marker : List Char := ['x', 'n', '-', '-']

/-- The longest Punycode that is read, in characters. -/
def encodedLimit : Nat := 2000

/-- The longest label that is written in Punycode, in characters. -/
def labelLimit : Nat := 1000

/-- A label whose characters all stand for themselves and are composed. -/
def isStable (label : List Char) : Bool := (map? label).map Composed.normalize = some label

/-- The characters that a mapped label shows: what follows the marker, decoded, or else its own. -/
def shown? (label : List Char) : Option (List Char) :=
  if marker.isPrefixOf label then
    let encoded := label.drop marker.length
    if isAscii encoded && encoded.getLast?.any (· ≠ '-') && encoded.length ≤ encodedLimit then
      (Punycode.decode? encoded).filter isStable
    else none
  else some label

/-- The characters of a label may be shown: none is forbidden, the first is no combining mark, all
joiners are needed, and other than ASCII labels are not too long. -/
def isValidLabel (label : List Char) : Bool :=
  !label.any isForbidden && !label.head?.any Mark.isMark && Joiner.areNeeded [] label &&
    (isAscii label || label.length ≤ labelLimit)

/-- A label in ASCII. -/
def labelToAscii (label : List Char) : List Char :=
  if isAscii label then label else marker ++ Punycode.encode label

/-- A name in ASCII. -/
def toAscii? (name : String) : Option String := do
  let mapped ← map? name.toList
  let labels := splitOn '.' (Composed.normalize mapped)
  let shown ← labels.mapM shown?
  if shown.all isValidLabel && Direction.areOrdered shown then
    return String.ofList (['.'].intercalate (labels.map labelToAscii))
  else none

end FlatTree.Domain
