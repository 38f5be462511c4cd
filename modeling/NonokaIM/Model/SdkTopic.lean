import NonokaIM.Model.Authz

/-! Topics as the SDK writes and normalizes them, before a request is sent. -/

namespace NonokaIM.Sdk

def p2pTopic (userID1 userID2 : Int) : String :=
  let (lo, hi) := if userID1 > userID2 then (userID2, userID1) else (userID1, userID2)
  "p2p_" ++ toString lo ++ "_" ++ toString hi

/-- The error of `strconv.ParseInt`, without the escapes of unprintable characters. -/
def parseIntError (s : List Char) : String :=
  let digits := s.drop ((s.takeWhile fun c => c == '+' || c == '-').take 1).length
  "strconv.ParseInt: parsing \"" ++ String.ofList s ++ "\": " ++
    if digits ≠ [] ∧ digits.all Char.isDigit then "value out of range" else "invalid syntax"

def parseP2PTopic (topic : String) : Except String (Int × Int) :=
  match splitUnderscore topic with
  | [part0, part1, part2] =>
    if part0 ≠ "p2p".toList then .error ("invalid p2p topic: " ++ topic)
    else
      match parseInt64 part1 with
      | none => .error ("invalid p2p topic uid1: " ++ parseIntError part1)
      | some uid1 =>
        match parseInt64 part2 with
        | none => .error ("invalid p2p topic uid2: " ++ parseIntError part2)
        | some uid2 => .ok (uid1, uid2)
  | _ => .error ("invalid p2p topic: " ++ topic)

/-- The two ids of a P2P topic are put in ascending order, other topics are kept. -/
def normalizeTopic (topic : String) : Except String String :=
  if ¬ hasPrefix topic "p2p_" then .ok topic
  else
    match parseP2PTopic topic with
    | .error e => .error e
    | .ok (uid1, uid2) => .ok (p2pTopic uid1 uid2)

example : normalizeTopic "p2p_7_+5" = .ok "p2p_5_7" := by decide

end NonokaIM.Sdk
