import NonokaIM.Library.RegExp

/-! Mentions in a text (`web/app/lib/mentions.ts`), a list of UTF-16 units. `toLowerCase` reads the
Unicode tables. -/

namespace NonokaIM.Web

open RegExp

abbrev JsString := List UInt16

/-- The class `\s`: white space and line ends. -/
def isSpaceUnit (c : UInt16) : Bool :=
  (0x09 ≤ c && c ≤ 0x0D) || c == 0x20 || c == 0xA0 || c == 0x1680 ||
    (0x2000 ≤ c && c ≤ 0x200A) || c == 0x2028 || c == 0x2029 || c == 0x202F || c == 0x205F ||
    c == 0x3000 || c == 0xFEFF

def isAt (c : UInt16) : Bool := c == 0x40

/-- The class `[^\s@]`. -/
def isNameUnit (c : UInt16) : Bool := !isSpaceUnit c && !isAt c

/-- `/(?:^|\s)@([^\s@]+)/g`. -/
def extractRegex : Regex UInt16 :=
  .seq (.alt .start (.one isSpaceUnit)) (.seq (.one isAt) (.group (.plus isNameUnit)))

/-- `/@([^\s@]+)/g`. -/
def segmentRegex : Regex UInt16 := .seq (.one isAt) (.group (.plus isNameUnit))

structure MentionMember where
  userId : ℕ
  username : JsString

structure TextSegment where
  text : JsString
  mentionedUserId : Option ℕ := none

/-- `add` of a set, which keeps the order of insertion. -/
def addId (ids : List ℕ) : Option ℕ → List ℕ
  | none => ids
  | some id => if id ∈ ids then ids else ids ++ [id]

section

variable (toLowerCase : JsString → JsString) (text : JsString) (members : List MentionMember)

/-- A look-up in the map by name: of members with one name the last one counts. -/
def byName (name : JsString) : Option ℕ :=
  (members.reverse.find? fun m => toLowerCase m.username = toLowerCase name).map
    MentionMember.userId

def namedMember (m : Match) : Option ℕ :=
  m.capture.bind fun group => byName toLowerCase members (slice text group.1 group.2)

def extractMentionIds : List ℕ :=
  if members = [] then []
  else
    (allMatches extractRegex text).foldl
      (fun ids m => addId ids (namedMember toLowerCase text members m)) []

def segmentsFrom (last : ℕ) : List Match → List TextSegment
  | [] => if last < text.length then [{ text := text.drop last }] else []
  | m :: ms =>
    -- only at a word boundary
    if 0 < m.index ∧ ¬ text[m.index - 1]?.any isSpaceUnit = true then segmentsFrom last ms
    else
      match namedMember toLowerCase text members m with
      | none => segmentsFrom last ms
      | some id =>
        (if last < m.index then [{ text := slice text last m.index }] else []) ++
          { text := slice text m.index m.stop, mentionedUserId := some id } ::
            segmentsFrom m.stop ms

def segmentMentions : List TextSegment :=
  if members = [] then [{ text }]
  else
    let segments := segmentsFrom toLowerCase text members 0 (allMatches segmentRegex text)
    if 0 < segments.length then segments else [{ text }]

end

end NonokaIM.Web
