/-!
# Globs over paths

A glob is a list of tokens, matched against the bytes of a path. `GlobToken.rests` says what may be
left of a path after a token, so that a glob covers a path if nothing may be left after its last
token. Whether `*` and `?` cross a separator depends on the style in which a glob is used.

## Main definitions

* `GlobStyle`, `GlobToken`, `Glob`: the two uses of globs, the pieces of a glob, and globs.
* `GlobToken.rests`: what may be left of a path after a token.
* `Glob.covers`: whether a glob covers a whole path.
-/

namespace TsxLint

/-- What a glob is used for. -/
inductive GlobStyle
  /-- Selecting files: `*` and `?` cross separators, and a class has to be closed. -/
  | selection
  /-- A rule of an ignore file: `*` and `?` stay inside a component, and a bracket that opens no
  class stands for itself. -/
  | ignoreRule
  deriving DecidableEq, Repr

/-- A piece of a glob. The three tokens for `**` differ in the separators that they stand for. -/
inductive GlobToken
  | literal (c : Char)
  | any
  | star
  | treeStart
  | treeEnd
  | treeMiddle
  | oneOf (negated : Bool) (ranges : List (Char × Char))
  | choice (branches : List (List GlobToken))
  deriving Inhabited

namespace GlobToken

/-! ### Bytes -/

/-- The bytes of a text. -/
def bytes (cs : List Char) : List UInt8 := cs.flatMap String.utf8EncodeChar

/-- The byte that separates the components of a path. -/
def separator : UInt8 := '/'.toNat.toUInt8

/-- The ranges of bytes that a range of characters stands for. Classes are over bytes: of two
characters that differ, the last byte of the one and the first byte of the other bound a range, and
their other bytes stand for themselves. -/
def byteRanges (low high : Char) : List (UInt8 × UInt8) :=
  let alone := fun (b : UInt8) => (b, b)
  if low = high then (bytes [low]).map alone
  else
    let lows := bytes [low]
    let highs := bytes [high]
    lows.dropLast.map alone ++ (lows.getLast?.toList.zip highs.head?.toList) ++
      highs.tail.map alone

/-- Whether a class covers a byte. -/
def classCovers (negated : Bool) (ranges : List (Char × Char)) (b : UInt8) : Bool :=
  ((ranges.flatMap fun r => byteRanges r.1 r.2).any fun r => r.1 ≤ b && b ≤ r.2) != negated

/-- What follows given bytes. -/
def afterBytes? : List UInt8 → List UInt8 → Option (List UInt8)
  | [], bs => some bs
  | _ :: _, [] => none
  | a :: start, b :: bs => if a = b then afterBytes? start bs else none

/-- What follows any number of bytes that satisfy a test. -/
def afterSome (test : UInt8 → Bool) : List UInt8 → List (List UInt8)
  | [] => [[]]
  | b :: bs => (b :: bs) :: if test b then afterSome test bs else []

/-- What follows one byte that satisfies a test. -/
def afterOne (test : UInt8 → Bool) : List UInt8 → List (List UInt8)
  | [] => []
  | b :: bs => if test b then [bs] else []

/-- What follows each separator of a path. -/
def afterSeparators : List UInt8 → List (List UInt8)
  | [] => []
  | b :: bs => if b = separator then bs :: afterSeparators bs else afterSeparators bs

/-- Whether `*` and `?` cover a byte. -/
def starCovers : GlobStyle → UInt8 → Bool
  | .selection, _ => true
  | .ignoreRule, b => b != separator

/-! ### Matching -/

mutual

/-- Whether a token stands for nothing at all. -/
def isVacuous : GlobToken → Bool
  | choice branches => branchesVacuous branches
  | _ => false

/-- Whether all tokens of a list stand for nothing. -/
def allVacuous : List GlobToken → Bool
  | [] => true
  | t :: ts => isVacuous t && allVacuous ts

/-- Whether all branches stand for nothing. -/
def branchesVacuous : List (List GlobToken) → Bool
  | [] => true
  | branch :: branches => allVacuous branch && branchesVacuous branches

end

mutual

/-- What may be left of a path after a token. -/
def rests (style : GlobStyle) : GlobToken → List UInt8 → List (List UInt8)
  | literal c, bs => (afterBytes? (bytes [c]) bs).toList
  | any, bs => afterOne (starCovers style) bs
  | star, bs => afterSome (starCovers style) bs
  | treeStart, bs => bs :: afterSeparators bs
  | treeEnd, bs => (afterOne (· == separator) bs).flatMap (afterSome fun _ => true)
  | treeMiddle, bs => (afterOne (· == separator) bs).flatMap fun rest => rest :: afterSeparators rest
  | oneOf negated ranges, bs => afterOne (classCovers negated ranges) bs
  | choice branches, bs =>
    if branchesVacuous branches then [bs] else branchRests style branches bs

/-- What may be left of some paths after a list of tokens. -/
def restsAll (style : GlobStyle) : List GlobToken → List (List UInt8) → List (List UInt8)
  | [], paths => paths
  | t :: ts, paths => restsAll style ts (paths.flatMap (rests style t)).eraseDups

/-- What may be left of a path after one of some branches. A branch that stands for nothing does not
count. -/
def branchRests (style : GlobStyle) : List (List GlobToken) → List UInt8 → List (List UInt8)
  | [], _ => []
  | branch :: branches, bs =>
    (if allVacuous branch then [] else restsAll style branch [bs]) ++ branchRests style branches bs

end

/-- The character that a token stands for. -/
def literal? : GlobToken → Option Char
  | literal c => some c
  | _ => none

/-- Whether a token is the given character. -/
def isLiteral (c : Char) (t : GlobToken) : Bool := t.literal? == some c

/-- Whether a token is `**` at the start of a glob. -/
def isTreeStart : GlobToken → Bool
  | treeStart => true
  | _ => false

end GlobToken

/-- A glob. -/
structure Glob where
  style : GlobStyle
  tokens : List GlobToken

namespace Glob

/-- Whether the tokens stand for a path, read as a whole. The glob that is `**` alone stands for
every path. -/
def spans (glob : Glob) (path : List UInt8) : Bool :=
  match glob.tokens with
  | [.treeStart] => true
  | tokens => (GlobToken.restsAll glob.style tokens [path]).contains []

/-- Whether a glob that ends in a dot goes by the whole path and not by the name of the file: it is
literal after an optional `**/` and a `*` that crosses separators, and has more to it than a name
after `**/` or the dot after `*`. -/
def goesByPath (glob : Glob) : Bool :=
  let inTree := glob.tokens.takeWhile GlobToken.isTreeStart
  let afterTree := glob.tokens.drop inTree.length
  let isLiteral := fun (ts : List GlobToken) => ts.all fun t => t.literal?.isSome
  match afterTree with
  | .star :: rest => glob.style = .selection && isLiteral rest && 1 < rest.length
  | rest => isLiteral rest && (inTree.isEmpty || rest.any (GlobToken.isLiteral '/'))

/-- Whether a glob covers a path. A path that ends in a dot names no file, so a glob that goes by the
name does not cover it. -/
def covers (glob : Glob) (path : String) : Bool :=
  let nameless := path.toList.getLast? == some '.' &&
    (glob.tokens.getLast?.map (GlobToken.isLiteral '.')).getD false && !glob.goesByPath
  !nameless && glob.spans (GlobToken.bytes path.toList)

end Glob

end TsxLint
