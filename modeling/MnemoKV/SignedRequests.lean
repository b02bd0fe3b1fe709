import MnemoKV.ByteLines
import MnemoKV.DecimalNumerals
import MnemoKV.FencedRequests

/-!
# Signed control requests

The controller signs the method, the path, the index and the body of a request together.
Its signature is worth nothing for any other request.
-/

namespace MnemoKV

/-- HMAC-SHA-256 under a secret, and SHA-256. -/
class ControlHashes where
  mac : Bytes → Bytes → Bytes
  sum256 : Bytes → Digest

/-- What the handlers see of a request.  There is no line feed in a method, in the path of
a route or in a header. -/
structure ControlRequest where
  method : Bytes
  path : Bytes
  index : Bytes
  body : Bytes
  signature : Bytes
  plain : 10 ∉ method ∧ 10 ∉ path ∧ 10 ∉ index
  deriving DecidableEq

def maxJSONBodyBytes : Nat := 2 ^ 20

/-- A call of `NodeClient.postAdmin` with the index of a log entry. -/
structure ControlCall where
  path : Bytes
  body : Bytes
  controlIndex : Nat
  route : 10 ∉ path
  fits : body.length ≤ maxJSONBodyBytes
  range : controlIndex ≠ 0 ∧ controlIndex < 2 ^ 64

namespace ControlRequest

def message (request : ControlRequest) : Bytes :=
  request.method ++ 10 :: (request.path ++ 10 :: (request.index ++ 10 :: request.body))

theorem eq_of_message {first second : ControlRequest} (same : first.message = second.message)
    (signatures : first.signature = second.signature) : first = second := by
  obtain ⟨method, path, index, body, signature, plain⟩ := first
  obtain ⟨method', path', index', body', signature', plain'⟩ := second
  obtain ⟨rfl, same⟩ := ByteLines.line_unique plain.1 plain'.1 same
  obtain ⟨rfl, same⟩ := ByteLines.line_unique plain.2.1 plain'.2.1 same
  obtain ⟨rfl, rfl⟩ := ByteLines.line_unique plain.2.2 plain'.2.2 same
  obtain rfl : signature = signature' := signatures
  rfl

variable [ControlHashes] (secret : Bytes)

def sign (request : ControlRequest) : Bytes :=
  HexText.encode (ControlHashes.mac secret request.message)

/-- The signature is the one of the message. -/
def verify (request : ControlRequest) : Bool :=
  HexText.decode request.signature = some (ControlHashes.mac secret request.message)

/-- What the fence tells operations apart by. -/
def operationDigest (request : ControlRequest) : Digest :=
  ControlHashes.sum256 request.message

/-- `prepareControllerAuthorization` of a node in automatic mode whose fence is open. -/
def prepareControllerAuthorization (request : ControlRequest) :
    Except AdminAnswer (Nat × Digest) :=
  if maxJSONBodyBytes < request.body.length then .error .invalidBody
  else if request.verify secret = false then .error .forbidden
  else
    match DecimalNumerals.read request.index with
    | none => .error .forbidden
    | some index =>
        if index = 0 ∨ 2 ^ 64 ≤ index then .error .forbidden
        else .ok (index, request.operationDigest)

end ControlRequest

namespace ControlCall

/-- The request that `postAdmin` sends. -/
def request [ControlHashes] (secret : Bytes) (call : ControlCall) : ControlRequest :=
  let unsigned : ControlRequest :=
    { method := .ascii "POST", path := call.path
      index := DecimalNumerals.write call.controlIndex, body := call.body, signature := []
      plain := ⟨by decide, call.route, fun feed =>
        absurd (DecimalNumerals.isDigit_of_mem_write feed) (by decide)⟩ }
  { unsigned with signature := unsigned.sign secret }

/-- Of all requests with the signature of a call, a node authorises the one that was
signed: with the index of the call, and under the digest of the whole request. -/
theorem signature_authorizes_one_request [ControlHashes] (secret : Bytes) (call : ControlCall)
    (request : ControlRequest)
    (presented : request.signature = (call.request secret).signature)
    (collisionFree : ControlHashes.mac secret request.message =
      ControlHashes.mac secret (call.request secret).message →
        request.message = (call.request secret).message) :
    (request.prepareControllerAuthorization secret).toOption =
      if request = call.request secret then
        some (call.controlIndex, request.operationDigest)
      else none := by
  have decoded : HexText.decode request.signature =
      some (ControlHashes.mac secret (call.request secret).message) := by
    rw [presented]
    exact HexText.decode_encode _
  unfold ControlRequest.prepareControllerAuthorization
  by_cases same : request = call.request secret
  · subst same
    have fits : ¬ maxJSONBodyBytes < (call.request secret).body.length :=
      Nat.not_lt.mpr call.fits
    have verified : (call.request secret).verify secret = true := decide_eq_true decoded
    have index : DecimalNumerals.read (call.request secret).index = some call.controlIndex :=
      DecimalNumerals.read_write _
    rw [if_neg fits, verified, if_neg Bool.true_eq_false.mp, index]
    simp only [call.range.1, Nat.not_le.mpr call.range.2, or_self, if_false, if_true,
      Except.toOption]
  · have refused : request.verify secret = false := decide_eq_false fun verified =>
      same (ControlRequest.eq_of_message
        (collisionFree (Option.some.inj (verified.symm.trans decoded))) presented)
    rw [refused, if_pos rfl, if_neg same]
    split_ifs <;> rfl

section Examples

/-- Every text is its own code. -/
@[reducible]
def plainHashes : ControlHashes :=
  { mac := fun _ text => text
    sum256 := fun _ => ⟨List.replicate 32 9, List.length_replicate⟩ }

attribute [local instance] plainHashes

def promotionCall : ControlCall :=
  { path := .ascii "/cluster/promote", body := .ascii "\x7b\"slot\":0\x7d", controlIndex := 7
    route := by decide, fits := by decide, range := by decide }

/-- The same signature over another slot. -/
def changedPromotion : ControlRequest :=
  { promotionCall.request [1] with body := .ascii "\x7b\"slot\":1\x7d" }

theorem changed_promotion_is_not_authorized :
    (changedPromotion.prepareControllerAuthorization [1]).toOption = none := by
  rw [signature_authorizes_one_request [1] promotionCall changedPromotion rfl id]
  exact if_neg (by decide)

end Examples

end ControlCall
end MnemoKV
