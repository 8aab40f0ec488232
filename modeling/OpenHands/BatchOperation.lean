/-
# Operations of a batch request

One item of a batch request, as the web hook of a file store sends it and as the event webhook
reads it (`BatchOperation` of enterprise/server/routes/event_webhook.py).
-/
import OpenHands.Lib.Base64

namespace OpenHands.WebHook

/-- `BatchMethod`. -/
inductive BatchMethod
  | POST
  | DELETE
  deriving DecidableEq, Repr

/-- `BatchOperation`. -/
structure BatchOperation where
  method : BatchMethod
  path : String
  content : Option String := none
  encoding : Option String := none
  deriving DecidableEq, Repr

/-- What `get_content` raises. -/
inductive ContentError
  | emptyContentInBatch
  | notAscii
  | invalidBase64
  deriving DecidableEq, Repr

/-- `base64.b64encode(contents).decode('ascii')`. -/
def b64encode (contents : ByteArray) : String := String.ofList (Base64.encode contents.data.toList)

/-- `base64.b64decode(content.encode('ascii'))`. -/
def b64decode (content : String) : Except ContentError ByteArray :=
  if content.toList.all fun c => c.toNat < 128 then
    match Base64.decode content.toList with
    | some data => .ok ⟨data.toArray⟩
    | none => .error .invalidBase64
  else .error .notAscii

/-- `BatchOperation.get_content`. -/
def BatchOperation.getContent (op : BatchOperation) : Except ContentError ByteArray :=
  match op.content with
  | none => .error .emptyContentInBatch
  | some content =>
    if op.encoding = some "base64" then b64decode content else .ok content.toUTF8

theorem b64decode_b64encode (contents : ByteArray) :
    b64decode (b64encode contents) = .ok contents := by
  have hascii : (b64encode contents).toList.all fun c => c.toNat < 128 := by
    unfold b64encode
    rw [String.toList_ofList, List.all_eq_true]
    intro c hc
    exact decide_eq_true (Base64.encode_isAscii _ c hc)
  unfold b64decode
  rw [if_pos hascii]
  unfold b64encode
  rw [String.toList_ofList, Base64.decode_encode]

/-- Encoded text is read as it was. -/
theorem fromUTF8?_toUTF8 (text : String) : String.fromUTF8? text.toUTF8 = some text := by
  unfold String.fromUTF8?
  exact dif_pos text.isValidUTF8

end OpenHands.WebHook
