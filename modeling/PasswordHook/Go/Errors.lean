import Mathlib

/-!
# Errors

An error value with the errors it wraps.  A function of the source that returns an `error` returns
an `Option Err` here, `none` for a nil error; `Err.nil` stands for a nil error inside another one.
-/

namespace PasswordHook

/-- The `error` values of the service. -/
inductive Err where
  /-- A nil error, as the wrapped error of another. -/
  | nil
  /-- `errors.New`, or an error of a collaborator. -/
  | new (msg : String)
  /-- `context.Canceled`. -/
  | canceled
  /-- `fmt.Errorf("msg: %w", err)`. -/
  | wrap (msg : String) (err : Err)
  /-- `errors.Join`. -/
  | join (err₁ err₂ : Err)
  /-- `worker.PermanentError`. -/
  | permanent (reason : String) (err : Err)
  /-- `graphclient.PermanentError`. -/
  | graphPermanent (statusCode : ℤ) (operation : String) (err : Err)
  /-- `graphclient.TransientError`. -/
  | graphTransient (statusCode : ℤ) (operation : String) (err : Err)
  deriving DecidableEq

namespace Err

/-- `errors.As(err, &permanentErr)` for `*worker.PermanentError`: the first one in the chain. -/
def asPermanent : Err → Option Err
  | .permanent reason err => some (.permanent reason err)
  | .wrap _ err => err.asPermanent
  | .join err₁ err₂ => err₁.asPermanent.or err₂.asPermanent
  | .graphPermanent _ _ err => err.asPermanent
  | .graphTransient _ _ err => err.asPermanent
  | _ => none

/-- `errors.As(err, &permanent)` for `*graphclient.PermanentError`. -/
def asGraphPermanent : Err → Option Err
  | .graphPermanent statusCode operation err => some (.graphPermanent statusCode operation err)
  | .wrap _ err => err.asGraphPermanent
  | .join err₁ err₂ => err₁.asGraphPermanent.or err₂.asGraphPermanent
  | .permanent _ err => err.asGraphPermanent
  | .graphTransient _ _ err => err.asGraphPermanent
  | _ => none

end Err

end PasswordHook
