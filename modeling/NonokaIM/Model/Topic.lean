import Mathlib.Data.List.Basic
import Mathlib.Algebra.Group.Int.Defs

/-! Topic strings: their type, the user ids of P2P topics, and normalization. -/

namespace NonokaIM

inductive TopicType where
  | unknown
  | p2p
  | group
  | system
  deriving DecidableEq

def hasPrefix (s p : String) : Bool := p.toList.isPrefixOf s.toList

/-- Format: p2p_uid1_uid2, grp_groupid, sys_uid. -/
def parseTopicType (topic : String) : TopicType :=
  if hasPrefix topic "p2p_" then .p2p
  else if hasPrefix topic "grp_" then .group
  else if hasPrefix topic "sys_" then .system
  else .unknown

/-! ## Scanning decimal numbers

`fmt.Sscanf` on the characters of the input. -/

def isSpace (c : Char) : Bool :=
  (0x09 ≤ c.toNat && c.toNat ≤ 0x0d) || c.toNat == 0x20 || c.toNat == 0x85 || c.toNat == 0xa0 ||
    c.toNat == 0x1680 || (0x2000 ≤ c.toNat && c.toNat ≤ 0x200a) || c.toNat == 0x2028 ||
    c.toNat == 0x2029 || c.toNat == 0x202f || c.toNat == 0x205f || c.toNat == 0x3000

/-- Leading spaces before a verb; a newline is not one of them. -/
def skipSpace : List Char → Except String (List Char)
  | [] => .ok []
  | c :: cs =>
    if c = '\n' then .error "unexpected newline"
    else if isSpace c then skipSpace cs
    else .ok (c :: cs)

/-- A space of the format: at least one space of the input, or its end. -/
def matchSpace : List Char → Except String (List Char)
  | [] => .ok []
  | c :: cs =>
    if c = '\n' then .error "newline in input does not match format"
    else if isSpace c then .ok (cs.dropWhile fun d => isSpace d && d != '\n')
    else .error "expected space in input to match format"

def digitsToNat (ds : List Char) : ℕ := ds.foldl (fun n c => 10 * n + (c.toNat - '0'.toNat)) 0

/-- The verb %d with a 64-bit target. -/
def scanInt (input : List Char) : Except String (Int × List Char) := do
  let cs ← skipSpace input
  let sign := cs.takeWhile (fun c => c == '+' || c == '-') |>.take 1
  let body := cs.drop sign.length
  let digits := body.takeWhile Char.isDigit
  if body = [] then .error "EOF"
  else if digits = [] then .error "expected integer"
  else
    let n := digitsToNat digits
    let v : Int := if sign = ['-'] then -n else n
    if -2 ^ 63 ≤ v ∧ v < 2 ^ 63 then .ok (v, body.drop digits.length)
    else .error ("strconv.ParseInt: parsing \"" ++ String.ofList (sign ++ digits) ++
      "\": value out of range")

/-- `strconv.ParseInt(s, 10, 64)`, without the text of its error. -/
def parseInt64 (s : List Char) : Option Int :=
  let sign := s.takeWhile (fun c => c == '+' || c == '-') |>.take 1
  let digits := s.drop sign.length
  if digits = [] ∨ ¬ digits.all Char.isDigit then none
  else
    let n := digitsToNat digits
    let v : Int := if sign = ['-'] then -n else n
    if -2 ^ 63 ≤ v ∧ v < 2 ^ 63 then some v else none

def wrapErr {α : Type*} (text : String) : Except String α → Except String α
  | .ok a => .ok a
  | .error e => .error (text ++ e)

theorem wrapErr_eq_ok {α : Type} {text : String} {x : Except String α} {a : α} :
    wrapErr text x = .ok a ↔ x = .ok a := by
  cases x <;> simp [wrapErr]

def splitUnderscore (topic : String) : List (List Char) := topic.toList.splitOn '_'

def extractUserIDsFromP2PTopic (topic : String) : Except String (Int × Int) :=
  match splitUnderscore topic with
  | [_, part1, part2] => wrapErr "parse p2p topic user IDs: " do
      let (uid1, rest) ← scanInt (part1 ++ ' ' :: part2)
      let rest ← matchSpace rest
      let (uid2, _) ← scanInt rest
      .ok (uid1, uid2)
  | _ => .error ("invalid p2p topic format: " ++ topic)

/-- The addressee of a system topic, as `SaveSystemMessage` reads it. -/
def extractSystemTarget (topic : String) : Except String Int :=
  match splitUnderscore topic with
  | [_, part] => wrapErr "parse system topic user ID: " do
      let (uid, _) ← scanInt part
      .ok uid
  | _ => .error ("invalid system topic format: " ++ topic)

def extractGroupID (topic : String) : Except String String :=
  if hasPrefix topic "grp_" then .ok (String.ofList (topic.toList.drop 4))
  else .error ("invalid group topic format: " ++ topic)

def normalizeTopic (topic : String) : Except String String :=
  match parseTopicType topic with
  | .p2p => do
      let (uid1, uid2) ← extractUserIDsFromP2PTopic topic
      let (lo, hi) := if uid1 > uid2 then (uid2, uid1) else (uid1, uid2)
      .ok ("p2p_" ++ toString lo ++ "_" ++ toString hi)
  | .group => .ok topic
  | .system => .ok topic
  | .unknown => .error ("invalid topic format: " ++ topic)

example : extractUserIDsFromP2PTopic "p2p_10_-2" = .ok (10, -2) := by decide

example : normalizeTopic "p2p_10_2x" = .ok "p2p_2_10" := by decide

end NonokaIM
