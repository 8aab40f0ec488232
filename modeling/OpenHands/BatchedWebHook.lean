/-
# The batched web hook

`BatchedWebHookFileStore` (storage/batched_web_hook.py): every write and every deletion of the
wrapped store is queued under its path, and the queue is sent as one request when it is large
enough, when its timer fires, or when it is flushed.

The calls of one store come one after the other (`_batch_lock`), with the timer anywhere
between them.  `submitted` holds the batches in the order in which they were taken out of
the queue.
-/
import Mathlib
import OpenHands.BatchOperation
import OpenHands.Lib.PyDict

namespace OpenHands.WebHook

/-- What is written to a path. -/
inductive Contents
  | str (s : String)
  | bytes (b : ByteArray)
  deriving DecidableEq

/-- The bytes that a path holds after the write. -/
def Contents.toBytes : Contents → ByteArray
  | .str s => s.toUTF8
  | .bytes b => b

/-! ## The wrapped store -/

/-- The files of a store. -/
abbrev Files := String → Option ByteArray

/-- `k` is the path `path` or lies below it. -/
def isBelow (path k : String) : Bool :=
  k = path ∨ (if path.toList = [] ∨ path.toList.getLast? = some '/' then path.toList
    else path.toList ++ ['/']) <+: k.toList

/-- `file_store.write`. -/
def Files.write (files : Files) (path : String) (contents : Contents) : Files :=
  fun k => if k = path then some contents.toBytes else files k

/-- `file_store.delete`. -/
def Files.delete (files : Files) (path : String) : Files :=
  fun k => if isBelow path k then none else files k

/-! ## The queue -/

/-- `operation`. -/
inductive Operation
  | write
  | delete
  deriving DecidableEq, Repr

/-- A queued update: a write comes with contents, a deletion without. -/
structure QueuedUpdate where
  operation : Operation
  contents : Option Contents
  valid : contents.isSome ↔ operation = .write

/-- The update of `write`. -/
def QueuedUpdate.ofWrite (contents : Contents) : QueuedUpdate :=
  ⟨.write, some contents, by simp⟩

/-- The update of `delete`. -/
def QueuedUpdate.ofDelete : QueuedUpdate := ⟨.delete, none, by simp⟩

/-- The size of the contents in bytes. -/
def contentSize : Option Contents → Int
  | none => 0
  | some (.str s) => s.utf8ByteSize
  | some (.bytes b) => b.size

/-- `BatchedWebHookFileStore`. -/
structure BatchedWebHookFileStore where
  fileStore : Files
  batchSizeLimitBytes : Int
  batch : PyDict String QueuedUpdate := .empty
  batchTimer : Bool := false
  batchSize : Int := 0
  submitted : List (PyDict String QueuedUpdate) := []

namespace BatchedWebHookFileStore

/-- `WEBHOOK_BATCH_SIZE_LIMIT_BYTES`. -/
def webhookBatchSizeLimitBytes : Int := 1048576

/-- `__init__`: no limit and the limit zero mean the default. -/
def init (fileStore : Files) (batchSizeLimitBytes : Option Int) : BatchedWebHookFileStore where
  fileStore
  batchSizeLimitBytes :=
    match batchSizeLimitBytes with
    | none => webhookBatchSizeLimitBytes
    | some limit => if limit = 0 then webhookBatchSizeLimitBytes else limit

/-- `_enqueue_batch_from_lock`. -/
def enqueueBatchFromLock (self : BatchedWebHookFileStore) : BatchedWebHookFileStore :=
  { self with
    batch := .empty
    batchSize := 0
    submitted := self.submitted ++ [self.batch]
    batchTimer := false }

/-- `_queue_update`. -/
def queueUpdate (self : BatchedWebHookFileStore) (path : String) (update : QueuedUpdate) :
    BatchedWebHookFileStore :=
  let previous :=
    match self.batch.get? path with
    | some previous => contentSize previous.contents
    | none => 0
  let queued :=
    { self with
      batchSize := self.batchSize - previous + contentSize update.contents
      batch := self.batch.set path update }
  if queued.batchSize ≥ queued.batchSizeLimitBytes then queued.enqueueBatchFromLock
  else { queued with batchTimer := true }

/-- `write`. -/
def write (self : BatchedWebHookFileStore) (path : String) (contents : Contents) :
    BatchedWebHookFileStore :=
  { self with fileStore := self.fileStore.write path contents }.queueUpdate path (.ofWrite contents)

/-- `delete`. -/
def delete (self : BatchedWebHookFileStore) (path : String) : BatchedWebHookFileStore :=
  { self with fileStore := self.fileStore.delete path }.queueUpdate path .ofDelete

/-- `_enqueue_batch_from_timer`. -/
def enqueueBatchFromTimer (self : BatchedWebHookFileStore) : BatchedWebHookFileStore :=
  self.enqueueBatchFromLock

/-- `flush`. -/
def flush (self : BatchedWebHookFileStore) : BatchedWebHookFileStore := self.enqueueBatchFromLock

end BatchedWebHookFileStore

/-! ## Sending a batch -/

/-- An item of the payload. -/
def batchItem (path : String) (update : QueuedUpdate) : BatchOperation :=
  let item : BatchOperation :=
    { method := if update.operation = .write then .POST else .DELETE
      path }
  match update.operation, update.contents with
  | .write, some (.bytes contents) =>
    match String.fromUTF8? contents with
    | some content => { item with content := some content }
    -- not UTF-8
    | none => { item with content := some (b64encode contents), encoding := some "base64" }
  | .write, some (.str content) => { item with content := some content }
  | _, _ => item

/-- `_send_batch_request`, up to the request itself: the payload, in the order of the batch. -/
def sendBatchRequest (batch : PyDict String QueuedUpdate) : List BatchOperation :=
  batch.entries.map fun entry => batchItem entry.1 entry.2

/-- `_send_batch`: an empty batch is not sent. -/
def sendBatch (batch : PyDict String QueuedUpdate) : Option (List BatchOperation) :=
  if batch.entries = [] then none else some (sendBatchRequest batch)

/-! ## The remote -/

/-- One item at the remote: `POST` sets a path, `DELETE` removes the path and what is below it,
and an item whose content cannot be read changes nothing. -/
def receiveItem (files : Files) (item : BatchOperation) : Files :=
  match item.method with
  | .POST =>
    match item.getContent with
    | .ok content => fun k => if k = item.path then some content else files k
    | .error _ => files
  | .DELETE => files.delete item.path

/-- The remote after the requests of the batches, each read item by item. -/
def remoteAfter (files : Files) (batches : List (PyDict String QueuedUpdate)) : Files :=
  (batches.filterMap sendBatch).foldl (fun files items => items.foldl receiveItem files) files

end OpenHands.WebHook
