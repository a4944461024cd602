import Mathlib
/-!
# Basics — the Rust types the model reads

A `String` or `&str` is its list of characters, a byte vector its list of bytes, a `Duration` or an `Instant` a number
of nanoseconds.  `Error` keeps the variants of `error.rs` that the modelled functions return.
-/
namespace Jss

abbrev Bytes := List UInt8
abbrev Text := List Char
abbrev Duration := Nat
abbrev Instant := Nat

def Duration.fromSecs (seconds : Nat) : Duration := seconds * 1000000000
def Duration.fromMillis (millis : Nat) : Duration := millis * 1000000
def Duration.asSecs (d : Duration) : Nat := d / 1000000000

/-- `str::as_bytes`. -/
def Text.asBytes (t : Text) : Bytes := t.flatMap String.utf8EncodeChar

/-- `to_string` of a number. -/
def Text.ofNat (n : Nat) : Text := Nat.toDigits 10 n

def Text.ofInt : Int → Text
  | .ofNat n => Text.ofNat n
  | .negSucc n => '-' :: Text.ofNat (n + 1)

instance : Coe String Text := ⟨String.toList⟩

instance : Std.Trichotomous (α := Text) (· < ·) := inferInstance

/-- The `io::ErrorKind`s the code tells apart. -/
inductive IoErrorKind where
  | wouldBlock | interrupted | timedOut | addrInUse | notFound | other
  deriving DecidableEq, Repr

/-- How `io::Error` shows a kind. -/
def IoErrorKind.display : IoErrorKind → Text
  | .wouldBlock => "operation would block"
  | .interrupted => "operation interrupted"
  | .timedOut => "timed out"
  | .addrInUse => "address in use"
  | .notFound => "entity not found"
  | .other => "other error"

/-- `error.rs`. -/
inductive Error where
  | cli (message : Text)
  | configRead (path : Text) (source : IoErrorKind)
  | configSyntax (path : Text) (line : Nat) (message : Text)
  | config (message : Text)
  | io (kind : IoErrorKind)
  | protocol (message : Text)
  | diagnosticUnavailable (message : Text)
  deriving DecidableEq, Repr

/-- How an `Error` is shown in a message. -/
def Error.display : Error → Text
  | .cli message => "invalid arguments: ".toList ++ message
  | .configRead path source =>
    "could not read the configuration file ".toList ++ path ++ ": ".toList ++ source.display
  | .configSyntax path line message =>
    "invalid configuration in ".toList ++ path ++ ':' :: Text.ofNat line ++ ": ".toList ++ message
  | .config message => "invalid configuration: ".toList ++ message
  | .io kind => "I/O error: ".toList ++ kind.display
  | .protocol message => "control channel error: ".toList ++ message
  | .diagnosticUnavailable message => "diagnostic capability unavailable: ".toList ++ message

/-! ## Reading back a `Result` -/

section Result

variable {ε α β : Type}

theorem result_of_bind {x : Except ε α} {f : α → Except ε β} {b : β} (h : (x >>= f) = .ok b) :
    ∃ a, x = .ok a ∧ f a = .ok b := by
  cases x with
  | error e => simp [bind, Except.bind] at h
  | ok a => exact ⟨a, rfl, h⟩

theorem foldlM_keeps {P : β → Prop} {f : β → α → Except ε β} (hstep : ∀ b a b', f b a = .ok b' → P b → P b') :
    ∀ (as : List α) {b b' : β}, as.foldlM f b = .ok b' → P b → P b'
  | [], b, b', h, hP => by
    have heq : b = b' := by simpa [pure, Except.pure] using h
    rw [← heq]
    exact hP
  | a :: as, b, b', h, hP => by
    rw [List.foldlM_cons] at h
    obtain ⟨next, hnext, h⟩ := result_of_bind h
    exact foldlM_keeps hstep as h (hstep b a next hnext hP)

end Result

end Jss
