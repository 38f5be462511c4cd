import NonokaIM.Library.Chunks
import NonokaIM.Model.ReceiptBatcher
import Mathlib.Algebra.GroupWithZero.Nat

/-! The push service of a gateway: batches of messages and of receipts.

What devices take and the order in which results arrive are inputs. Positions are not in the
source's results; they tell equal users apart. -/

namespace NonokaIM

open KeyedBuffer Chunks

/-! ## One message for several users -/

/-- A result that a worker sends: the user at a position of the request, and the number of devices
that got the message. -/
structure PushResult where
  userID : Int
  position : ℕ
  delivered : ℕ

/-- Two workers for each CPU, at least 4 and at most 64. -/
def getPushWorkerCount (numCPU : ℕ) : ℕ :=
  if numCPU * 2 < 4 then 4 else if 64 < numCPU * 2 then 64 else numCPU * 2

theorem getPushWorkerCount_pos (numCPU : ℕ) : 0 < getPushWorkerCount numCPU := by
  unfold getPushWorkerCount
  split
  · omega
  · split <;> omega

/-- The loop of one worker of `batchPushConcurrent`. When it sees that the context is done, it
reports all that is left of its chunk as failed. -/
def pushChunk (done : ℕ → Bool) (broadcast : ℕ → ℕ) : List (Int × ℕ) → List PushResult
  | [] => []
  | (userID, position) :: rest =>
    if done position then
      ((userID, position) :: rest).map fun x => ⟨x.1, x.2, 0⟩
    else ⟨userID, position, broadcast position⟩ :: pushChunk done broadcast rest

def pushChunkSize (users pushWorkers : ℕ) : ℕ := chunkSize users (min users pushWorkers)

def workerResults (pushWorkers : ℕ) (done : ℕ → Bool) (broadcast : ℕ → ℕ) (userIDs : List Int) :
    List PushResult :=
  (bounds userIDs.length (pushChunkSize userIDs.length pushWorkers)
    (min userIDs.length pushWorkers) 0).flatMap fun b =>
      pushChunk done broadcast (slice b.1 b.2 userIDs.zipIdx)

/-- What `batchPushConcurrent` makes of the results as they arrive: the total of devices and the
failed users. -/
def collectResults : List PushResult → ℕ × List Int
  | [] => (0, [])
  | r :: rs =>
    (r.delivered + (collectResults rs).1,
      if r.delivered = 0 then r.userID :: (collectResults rs).2 else (collectResults rs).2)

/-! ## Receipts for several users -/

structure ReceiptBatchItem where
  userID : Int
  receipt : Option SendReceipt
  deriving DecidableEq

/-- The connections of each user, the receipts that can be encoded, and which connections take
the receipt at a position of the request. -/
structure ReceiptEnv where
  conns : Int → List String
  encodes : SendReceipt → Bool := fun _ => true
  sends : String → ℕ → Bool

/-- Put the receipt of an item to those of its user; a nil receipt is left out. -/
def addReceipt (userReceipts : Buffer Int StoredReceipt) (x : ReceiptBatchItem × ℕ) :
    Buffer Int StoredReceipt :=
  match x.1.receipt with
  | none => userReceipts
  | some receipt => add userReceipts x.1.userID ⟨receipt, x.2⟩

def groupReceipts (items : List ReceiptBatchItem) : Buffer Int StoredReceipt :=
  items.zipIdx.foldl addReceipt ∅

/-- The sends that succeed, each with its connection and the position of its receipt. -/
def broadcastReceiptsToUser (env : ReceiptEnv) (userID : Int) (receipts : List StoredReceipt) :
    List (String × ℕ) :=
  let data := receipts.filter fun r => env.encodes r.receipt
  (env.conns userID).flatMap fun c => (data.filter fun r => env.sends c r.number).map fun r =>
    (c, r.number)

structure ReceiptsReply where
  totalDelivered : ℕ := 0
  failedItems : List ReceiptBatchItem := []
  deriving DecidableEq

/-- The results come in any order of the users. -/
def batchPushReceiptsToUsers (env : ReceiptEnv) (order : List Int)
    (items : List ReceiptBatchItem) : ReceiptsReply :=
  let delivered (userID : Int) : ℕ :=
    (broadcastReceiptsToUser env userID (get (groupReceipts items) userID)).length
  { totalDelivered := (order.map delivered).sum
    failedItems := order.flatMap fun userID =>
      if delivered userID = 0 then items.filter fun item => item.userID = userID else [] }

end NonokaIM
