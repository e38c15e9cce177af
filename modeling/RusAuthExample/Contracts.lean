import RusAuthExample.Utf16Text

/-!
The records exchanged with RusAuth and kept by the example application. The
transaction id of a message from outside may be null; the id of a stored flow
never is, because the dictionary refuses a null key. DateTime counts ticks.
-/
namespace RusAuthExample
open Utf16Text

abbrev DateTime := Nat

/-- The package enumerates four members; a value read from JSON may be any other
    number, and the code treats it by its default branches. -/
inductive CallConfirmationStatus where
  | unhandled
  | success
  | failed
  | expired
  | other (value : Int)
  deriving DecidableEq, Repr

structure RusAuthCallToConfirmRequest where
  phoneNumber : Str
  expirationMinute : Int
  webHook : Str
  webHookBearerToken : Str
  deriving DecidableEq, Repr

structure RusAuthCallToConfirmResponse where
  transactionId : Option Str
  atcPhoneNumber : Option Str
  deriving DecidableEq, Repr

structure RusAuthCheckConfirmationRequest where
  phoneNumber : Str
  transactionId : Str
  deriving DecidableEq, Repr

structure RusCheckConfirmationResponse where
  status : CallConfirmationStatus
  deriving DecidableEq, Repr

structure RusAuthConfirmationWebHookRequest where
  transactionId : Option Str
  clientPhoneNumber : Str
  deriving DecidableEq, Repr

structure ExampleConfirmationFlow where
  transactionId : Str
  clientPhoneNumber : Str
  confirmationPhoneNumber : Option Str
  status : CallConfirmationStatus
  webHook : Str
  createdOn : DateTime
  completedOn : Option DateTime
  callbackReceivedOn : Option DateTime
  lastManualCheckOn : Option DateTime
  deriving DecidableEq, Repr

structure ExampleConfirmationUpdate where
  transactionId : Str
  status : CallConfirmationStatus
  callbackReceivedOn : Option DateTime
  completedOn : Option DateTime
  deriving DecidableEq, Repr

/-- The exceptions that cross a method boundary: a null dictionary key, the two
    thrown by the facade, a cancelled token, and whatever outside code throws. -/
inductive Exn where
  | argumentNull
  | invalidOperation (message : Str)
  | operationCanceled
  | external (message : Str)
  deriving DecidableEq, Repr

def Exn.message : Exn → Str
  | .argumentNull => lit "Value cannot be null. (Parameter 'key')"
  | .invalidOperation message => message
  | .operationCanceled => lit "The operation was canceled."
  | .external message => message

end RusAuthExample
