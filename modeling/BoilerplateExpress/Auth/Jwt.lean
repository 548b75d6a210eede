import BoilerplateExpress.Errors

/-!
# Access and refresh tokens

The wrappers of `lib/jwt.ts` around the token library. The library is a parameter:
`decode` is the payload of a string whose signature checks out under the secret,
and the expiry test is the library's own, in whole seconds.
-/
namespace BoilerplateExpress.Auth

inductive TokenType where
  | access
  | refresh
  deriving DecidableEq, Repr

structure JwtPayload where
  userId : Text
  roles : List Text
  type : TokenType
  exp : Option ℕ
  deriving DecidableEq, Repr

/-- The token library under one of the two secrets. -/
structure JwtKey where
  decode : Text → Option JwtPayload

namespace JwtKey

/-- A token with an expiry claim is refused from that second on. -/
def verify (key : JwtKey) (token : Text) (now : ℕ) : Option JwtPayload :=
  (key.decode token).filter
    (fun payload => payload.exp.all (fun exp => decide (now / 1000 < exp)))

lemma decode_of_verify (key : JwtKey) {token} {now} {payload}
    (h : key.verify token now = some payload) : key.decode token = some payload :=
  (Option.filter_eq_some_iff.mp h).1

end JwtKey

def verifyAccessToken (key : JwtKey) (token : Text) (now : ℕ) : Except AppError JwtPayload :=
  match key.verify token now with
  | some payload => .ok payload
  | none => .error
      { statusCode := 401, message := "Invalid or expired access token",
        code := some "TOKEN_INVALID" }

def verifyRefreshToken (key : JwtKey) (token : Text) (now : ℕ) : Except AppError JwtPayload :=
  match key.verify token now with
  | some payload => .ok payload
  | none => .error
      { statusCode := 401, message := "Invalid or expired refresh token",
        code := some "TOKEN_INVALID" }

def tokenMissingExp : AppError :=
  { statusCode := 500, message := "Refresh token has no expiry claim",
    code := some "TOKEN_MISSING_EXP" }

/-- When a refresh token stops verifying, in epoch milliseconds. -/
def refreshTokenExpiresAt (key : JwtKey) (token : Text) (now : ℕ) : Except AppError ℕ := do
  let payload ← verifyRefreshToken key token now
  match payload.exp with
  | some exp => .ok (exp * 1000)
  | none => .error tokenMissingExp

lemma decode_of_verifyRefreshToken {key token now payload}
    (h : verifyRefreshToken key token now = .ok payload) : key.decode token = some payload := by
  unfold verifyRefreshToken at h
  split at h
  · rename_i held hheld
    have heq : held = payload := Except.ok.inj h
    rw [← heq]
    exact key.decode_of_verify hheld
  · cases h

end BoilerplateExpress.Auth
