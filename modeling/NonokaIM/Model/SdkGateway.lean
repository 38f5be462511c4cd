import NonokaIM.Model.ConnManager
import NonokaIM.Model.SdkRealtime

/-! How the SDK chooses a gateway: URLs, selectors, the loop of `connectAndAuth`, and the HTTP
address of a gateway. An `int` of Go has 64 bits. -/

namespace NonokaIM.Sdk

/-- A selector is a string; one that is empty or unknown counts as round robin. -/
inductive GatewaySelector where
  | unset
  | roundRobin
  | random
  | hashUserID
  | other (name : String)
  deriving DecidableEq

def fnv32a (text : String) : UInt32 :=
  text.toUTF8.data.toList.foldl (fun h b => fnvByte h b.toUInt32) 2166136261

def randomSum (userID : Int) (attempt : Int64) : UInt32 :=
  fnv32a "im-sdk-random" + UInt32.ofInt userID + UInt32.ofInt attempt.toInt

/-- The index among `n` gateways; a remainder has the sign of the dividend. -/
def gatewayIndex (n : ℕ) (selector : GatewaySelector) (userID : Int) (attempt : Int64) : Int :=
  match selector with
  | .hashUserID => ((fnv32a "im-sdk" + UInt32.ofInt userID).toNat % n : ℕ)
  | .random =>
    if userID = 0 then attempt.toInt.tmod n else ((randomSum userID attempt).toNat % n : ℕ)
  | .unset | .roundRobin | .other _ => attempt.toInt.tmod n

/-- There is no result if the index is out of range, where the program panics. -/
def selectGatewayURL (urls : List String) (selector : GatewaySelector) (userID : Int)
    (attempt : Int64) : Option (String × Int) :=
  if urls = [] then some ("", 0)
  else
    let idx := gatewayIndex urls.length selector userID attempt
    if idx < 0 then none else urls[idx.toNat]?.map (·, idx)

/-- An explicit URL takes precedence over the configured list, and that over the URLs that the
server has named. -/
def gatewayList (gatewayURL : String) (gatewayURLs serverDiscovered : List String) : List String :=
  if gatewayURL ≠ "" then [gatewayURL]
  else if gatewayURLs ≠ [] then gatewayURLs
  else serverDiscovered

structure GatewayOptions where
  gatewayURL : String := ""
  gatewayURLs : List String := []
  gatewaySelector : GatewaySelector := .roundRobin
  userID : Int := 0
  token : String := ""
  deriving DecidableEq

structure GatewayClient where
  opts : GatewayOptions
  gatewayURLs : List String
  gatewayIndex : Int := 0
  connectAttempt : Int64 := 0
  state : RtState := .disconnected

/-- How a dial ends; without a token the client does not authenticate. -/
inductive Dial where
  | fails
  | opens (authenticates : Bool)

inductive ConnectResult where
  | alreadyConnected
  | connected
  | dialFailed
  | panicked
  deriving DecidableEq

def newGatewayClient (opts : GatewayOptions) : GatewayClient :=
  let opts :=
    if opts.gatewayURL = "" ∧ opts.gatewayURLs = [] then
      { opts with gatewayURL := "ws://localhost:8000/ws" }
    else opts
  { opts, gatewayURLs := gatewayList opts.gatewayURL opts.gatewayURLs [] }

namespace GatewayClient

variable (rt : GatewayClient)

def nextGatewayURL : Option (String × GatewayClient) :=
  if rt.gatewayURLs = [] then some (rt.opts.gatewayURL, rt)
  else
    (selectGatewayURL rt.gatewayURLs rt.opts.gatewaySelector rt.opts.userID rt.connectAttempt).map
      fun (url, idx) => (url, { rt with gatewayIndex := idx })

def rotateGateway : GatewayClient :=
  if rt.gatewayURLs = [] then rt else { rt with connectAttempt := rt.connectAttempt + 1 }

/-- The loop of `connectAndAuth` from its pass number `i` on, with at most `left` passes; `dialled`
lists the URLs that were dialled before. -/
def dialLoop (dials : ℕ → Dial) (i : ℕ) :
    (left : ℕ) → GatewayClient → List String → ConnectResult × List String × GatewayClient
  | 0, rt, dialled => (.dialFailed, dialled, { rt with state := .disconnected })
  | left + 1, rt, dialled =>
    let rt := if 0 < i then rt.rotateGateway else rt
    match rt.nextGatewayURL with
    | none => (.panicked, dialled, rt)
    | some (url, rt) =>
      match dials i with
      | .fails => dialLoop dials (i + 1) left rt (dialled ++ [url])
      | .opens authenticates =>
        if rt.opts.token = "" then
          (.connected, dialled ++ [url], { rt with state := .connected })
        else if authenticates then
          (.connected, dialled ++ [url], { rt with state := .authed })
        else
          dialLoop dials (i + 1) left { rt with state := .disconnected } (dialled ++ [url])

/-- The result, the dialled URLs, and the client afterwards. A connected client closes its
connection first, so that only a connecting one refuses. -/
def connectAndAuth (dials : ℕ → Dial) : ConnectResult × List String × GatewayClient :=
  match rt.state with
  | .connecting => (.alreadyConnected, [], rt)
  | .disconnected | .connected =>
    dialLoop dials 0 (max rt.gatewayURLs.length 1) { rt with state := .connecting } []
  | .authed | .reconnecting =>
    dialLoop dials 0 (max rt.gatewayURLs.length 1) { rt with state := .reconnecting } []

def dialled (dials : ℕ → Dial) : List String := (rt.connectAndAuth dials).2.1

end GatewayClient

def httpScheme (url : String) : String :=
  if hasPrefix url "wss://" then "https://" ++ String.ofList (url.toList.drop 6)
  else if hasPrefix url "ws://" then "http://" ++ String.ofList (url.toList.drop 5)
  else url

/-- `strings.Index` counts bytes. -/
def deriveBaseURLFromGateway (gatewayURL : String) : String :=
  let base := httpScheme gatewayURL
  let before := String.ofList (base.toList.takeWhile (· ≠ '/'))
  if '/' ∈ base.toList ∧ "https://".utf8ByteSize < before.utf8ByteSize then before else base

end NonokaIM.Sdk
