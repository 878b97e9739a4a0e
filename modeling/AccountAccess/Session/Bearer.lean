import AccountAccess.Failure
import AccountAccess.Http.Header
import AccountAccess.Text.Split

/-!
# Bearer credentials

The token of a request stands in its `Authorization` field after the word
`Bearer` and a space.
-/

namespace AccountAccess
namespace Session

/-- The token of a request. -/
def bearerToken (headers : Http.Headers) : Except Refusal String :=
  match headers.first? "authorization" with
  | none => .error .missingCredential
  | some bytes =>
    match Text.visible? bytes with
    | none => .error .malformedCredential
    | some value =>
      if Text.isBlankText value then .error .missingCredential
      else
        match Text.splitFirst ' ' value.toList with
        | none => .error .malformedCredential
        | some (scheme, rest) =>
          let credentials := Text.trimChars rest
          if scheme = [] ∨ credentials = [] ∨ credentials.any Text.isBlank then
            .error .malformedCredential
          else if scheme ≠ "Bearer".toList then .error .unsupportedScheme
          else .ok (String.ofList credentials)

end Session
end AccountAccess
