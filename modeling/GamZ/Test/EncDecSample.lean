import GamZ.Foundation.Stdio
import GamZ.Foundation.StringRewrite

/-! # The sample that encrypts a string

`enc_dec_sample` moves every byte of a string by 3, up to encrypt it and down to decrypt
it. A byte that comes to 0 ends the string. -/

namespace GamZ.Test

open CString Stdio

/-- The size of `str`. -/
def strSize : Nat := 100

def encryptByte (c : Byte) : Byte := c + 3

def decryptByte (c : Byte) : Byte := c - 3

private abbrev message (line : String) : List Byte :=
  line.toList.map byte

/-- What the `switch` leaves in `str` and what it prints. -/
def encDecSample (x : Int) (str : List Byte) : List Byte × List Byte :=
  if x = 1 then
    let str := rewriteLoop encryptByte strSize str 0
    (str, message "\nEncrypted string: " ++ (contents str ++ [newline]))
  else if x = 2 then
    let str := rewriteLoop decryptByte strSize str 0
    (str, message "\nDecrypted string: " ++ (contents str ++ [newline]))
  else (str, message "\nError\n")

/-- A string that fits into `str`. -/
structure EnteredText where
  text : List Byte
  short : text.length ≤ 99
  noNul : (0 : Byte) ∉ text

def Holds (str text : List Byte) : Prop :=
  str.length = strSize ∧ contents str = text

/-- The second option gives the text back, in whatever array it finds the string that the
first one left. -/
def Undoes (first second : Int) (text : List Byte) : Prop :=
  ∀ str again, Holds str text → Holds again (contents (encDecSample first str).1) →
    contents (encDecSample second again).1 = text

def RoundTrips (text : List Byte) : Prop :=
  Undoes 1 2 text ∧ Undoes 2 1 text

/-! ## One run -/

/-- The option rewrites the string byte by byte. -/
def Rewrites (option : Int) (f : Byte → Byte) : Prop :=
  ∀ str, (encDecSample option str).1 = rewriteLoop f strSize str 0

theorem encrypt_rewrites : Rewrites 1 encryptByte := fun _ => rfl

theorem decrypt_rewrites : Rewrites 2 decryptByte := fun _ => rfl

theorem Rewrites.holds {option : Int} {f : Byte → Byte} (rewrites : Rewrites option f)
    {str text : List Byte} (holds : Holds str text) :
    Holds (encDecSample option str).1 (contents (text.map f)) := by
  rcases holds with ⟨size, isText⟩
  rw [rewrites str, ← size, rewriteLoop_eq, ← isText]
  exact ⟨(length_rewriteString str).trans size, contents_rewriteString str⟩

theorem EnteredText.exists_holds (entered : EnteredText) : ∃ str, Holds str entered.text := by
  have short := entered.short
  refine ⟨entered.text ++ List.replicate (strSize - entered.text.length) 0, ?_, ?_⟩
  · rw [List.length_append, List.length_replicate, strSize]
    omega
  · rw [contents_append_replicate, contents_of_noNul _ entered.noNul]

/-! ## Two runs -/

theorem undoes_iff {first second : Int} {f g : Byte → Byte} (rewrites : Rewrites first f)
    (rewritesBack : Rewrites second g) (undoes : ∀ c, g (f c) = c) (undone : ∀ c, f (g c) = c)
    (entered : EnteredText) : Undoes first second entered.text ↔ g 0 ∉ entered.text := by
  rw [← given_back_iff undoes undone entered.noNul]
  constructor
  · intro secondUndoes
    rcases entered.exists_holds with ⟨str, holds⟩
    have left := rewrites.holds holds
    have back := (rewritesBack.holds left).2
    rw [← left.2] at left
    rw [← back]
    exact secondUndoes str _ holds left
  · intro given str again holds holdsAgain
    rw [(rewrites.holds holds).2] at holdsAgain
    rw [(rewritesBack.holds holdsAgain).2, given]

theorem decryptByte_encryptByte (c : Byte) : decryptByte (encryptByte c) = c :=
  UInt8.add_sub_cancel c 3

theorem encryptByte_decryptByte (c : Byte) : encryptByte (decryptByte c) = c :=
  UInt8.sub_add_cancel c 3

theorem encrypt_undone_iff (entered : EnteredText) :
    Undoes 1 2 entered.text ↔ (253 : Byte) ∉ entered.text :=
  undoes_iff encrypt_rewrites decrypt_rewrites decryptByte_encryptByte encryptByte_decryptByte
    entered

theorem decrypt_undone_iff (entered : EnteredText) :
    Undoes 2 1 entered.text ↔ (3 : Byte) ∉ entered.text :=
  undoes_iff decrypt_rewrites encrypt_rewrites encryptByte_decryptByte decryptByte_encryptByte
    entered

/-- Of all the bytes a string may have, just the two that an option turns into the NUL are
lost on a round trip. -/
theorem roundTrips_iff (entered : EnteredText) :
    RoundTrips entered.text ↔ (253 : Byte) ∉ entered.text ∧ (3 : Byte) ∉ entered.text := by
  rw [RoundTrips, encrypt_undone_iff, decrypt_undone_iff]

/-- The byte 253 alone is encrypted to the empty string. -/
theorem not_roundTrips : ¬ ∀ entered : EnteredText, RoundTrips entered.text := by
  intro always
  have undone := (encrypt_undone_iff ⟨[253], by decide, by decide⟩).mp (always _).1
  exact undone (List.mem_singleton_self 253)

end GamZ.Test
