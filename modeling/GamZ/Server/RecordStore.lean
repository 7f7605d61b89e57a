import GamZ.Foundation.BoundedFifo
import GamZ.Server.StrBuff
import Mathlib.Logic.Function.Basic

/-! # Storing one record

The `data_in` branch of `client_receive_process`: load the history file, append
the record below eight lines, otherwise drop the oldest line and rewrite the
file. -/

namespace GamZ.Server

open CString Stdio

/-- The file system entry `input.txt` and the shared variables of the server. -/
structure ServerMemory where
  inputTxt : Option (List Byte)
  upData : Fin 70 → Int
  updateFlag : Int
  semaphore : Int
  logout : Int

/-- The frame in the first 70 bytes of a receive buffer. -/
def recordOf (buff : List Byte) : Frame :=
  fun i => buff.getD i.val 0

/-- One pass of the loop over the 70 bytes: publish the value and print it. -/
def printValue (buff : List Byte) (printed : (Fin 70 → Int) × List Byte) (i : Fin 70) :
    (Fin 70 → Int) × List Byte :=
  (Function.update printed.1 i (recordOf buff i).toNat,
    printed.2 ++ (decimal (recordOf buff i).toNat ++ [space]))

/-- The loop over the 70 bytes and the newline after it, onto `out`. -/
def printRecord (buff : List Byte) (upData : Fin 70 → Int) (out : List Byte) :
    (Fin 70 → Int) × List Byte :=
  let printed := (List.finRange 70).foldl (printValue buff) (upData, out)
  (printed.1, printed.2 ++ [newline])

/-- `for(i = 0; i < n - 1; i++) strcpy(str_buff[i],str_buff[i+1]);` -/
def shiftRows (n : Nat) (strBuff : StrBuff) : Except Fault StrBuff :=
  (List.range (n - 1)).foldlM (fun strBuff i => strBuff.copyRow i (i + 1)) strBuff

/-- `for(i = 0; i < n - 1 ; i++) fprintf(fp,"%s",str_buff[i]);` -/
def printRows (n : Nat) (strBuff : StrBuff) (out : List Byte) : Except Fault (List Byte) :=
  (List.range (n - 1)).foldlM
    (fun out i => do
      let row ← strBuff.load i
      pure (out ++ contents row.val)) out

/-- The file in front of the new line: opened with `"a+"` below eight lines,
otherwise truncated with `"w"` and refilled without the oldest line. -/
def reopen (file : List Byte) (loaded : Loaded) : Except Fault (List Byte) :=
  if loaded.n < 8 then .ok file
  else do
    let strBuff ← shiftRows loaded.n loaded.strBuff
    printRows loaded.n strBuff []

/-- The `data_in` branch from `*semaphore = 1` to `*semaphore = 0`. -/
def storeRecord (buff : List Byte) (memory : ServerMemory) : Except Fault ServerMemory := do
  let loaded ← loadRows memory.inputTxt StrBuff.cleared
  let out ← reopen (memory.inputTxt.getD []) loaded
  let printed := printRecord buff memory.upData out
  pure { memory with
    inputTxt := some printed.2
    upData := printed.1
    updateFlag := 1
    semaphore := 0 }

/-! ## The printing loop -/

private theorem foldl_printValue (buff : List Byte) (slots : List (Fin 70))
    (upData : Fin 70 → Int) (out : List Byte) :
    slots.foldl (printValue buff) (upData, out) =
      (fun k => if k ∈ slots then ((recordOf buff k).toNat : Int) else upData k,
        out ++ slots.flatMap fun i => decimal (recordOf buff i).toNat ++ [space]) := by
  induction slots generalizing upData out with
  | nil => simp
  | cons i slots induction =>
      rw [List.foldl_cons, printValue, induction]
      apply Prod.ext
      · funext k
        by_cases later : k ∈ slots
        · simp [later]
        · by_cases here : k = i
          · subst here
            simp [later]
          · simp [later, here]
      · simp

theorem printRecord_eq (buff : List Byte) (upData : Fin 70 → Int) (out : List Byte) :
    printRecord buff upData out =
      (fun k => ((recordOf buff k).toNat : Int), out ++ recordLine (recordOf buff)) := by
  rw [printRecord, foldl_printValue]
  apply Prod.ext
  · funext k
    simp
  · simp [recordLine, Frame.bytes, List.flatMap_map]

/-! ## Shifting and rewriting rows -/

/-- The first `n` rows hold the given texts. -/
def RowTexts (strBuff : StrBuff) (texts : Nat → List Byte) (n : Nat) : Prop :=
  ∀ j (inside : j < 10), j < n → contents (strBuff[j]).val = texts j

private theorem shift_prefix (strBuff : StrBuff) (texts : Nat → List Byte) {n : Nat}
    (inArray : n ≤ 10) (holds : RowTexts strBuff texts n) :
    ∀ moved, moved + 1 ≤ n → ∃ shifted,
      (List.range moved).foldlM (fun strBuff i => strBuff.copyRow i (i + 1)) strBuff =
        (.ok shifted : Except Fault StrBuff) ∧
      RowTexts shifted (fun j => if j < moved then texts (j + 1) else texts j) n := by
  intro moved
  induction moved with
  | zero =>
      intro _
      exact ⟨strBuff, rfl, by simpa [RowTexts] using holds⟩
  | succ moved induction =>
      intro within
      rcases induction (by omega) with ⟨shifted, run, texts'⟩
      have sourceInside : moved + 1 < 10 := by omega
      have targetInside : moved < 10 := by omega
      refine ⟨shifted.set moved (StrBuff.copied (shifted[moved + 1])) targetInside,
        ?_, ?_⟩
      · rw [List.range_succ, List.foldlM_append, run]
        simp only [List.foldlM_cons, List.foldlM_nil, bind, Except.bind, pure, Except.pure,
          shifted.copyRow_inside targetInside sourceInside]
      · intro j inside early
        by_cases target : j = moved
        · subst target
          rw [Vector.getElem_set_self, StrBuff.contents_copied,
            texts' (j + 1) sourceInside (by omega)]
          simp
        · rw [Vector.getElem_set_ne targetInside inside (by omega), texts' j inside early]
          by_cases before : j < moved
          · simp [before, Nat.lt_succ_of_lt before]
          · have after : ¬ j < moved + 1 := by omega
            simp [before, after]

private theorem print_prefix (strBuff : StrBuff) (texts : Nat → List Byte) {n : Nat}
    (inArray : n ≤ 10) (holds : RowTexts strBuff texts n) (out : List Byte) :
    ∀ printed, printed ≤ n →
      (List.range printed).foldlM
          (fun out i => do
            let row ← strBuff.load i
            pure (out ++ contents row.val)) out =
        (.ok (out ++ ((List.range printed).map texts).flatten) : Except Fault (List Byte)) := by
  intro printed
  induction printed with
  | zero =>
      intro _
      simp
      rfl
  | succ printed induction =>
      intro within
      have inside : printed < 10 := by omega
      rw [List.range_succ, List.foldlM_append, induction (by omega)]
      simp [StrBuff.load_inside, inside, holds printed inside within, bind, Except.bind, pure,
        Except.pure]

theorem shiftRows_texts (strBuff : StrBuff) (texts : Nat → List Byte) {n : Nat}
    (inArray : n ≤ 10) (positive : 0 < n) (holds : RowTexts strBuff texts n) :
    ∃ shifted, shiftRows n strBuff = .ok shifted ∧
      RowTexts shifted (fun j => texts (j + 1)) (n - 1) := by
  rcases shift_prefix strBuff texts inArray holds (n - 1) (by omega) with
    ⟨shifted, run, moved⟩
  refine ⟨shifted, run, ?_⟩
  intro j inside early
  rw [moved j inside (by omega)]
  exact if_pos early

theorem shift_print_rows (strBuff : StrBuff) (texts : Nat → List Byte) {n : Nat}
    (inArray : n ≤ 10) (positive : 0 < n) (holds : RowTexts strBuff texts n) :
    (shiftRows n strBuff >>= fun shifted => printRows n shifted []) =
      .ok ((List.range (n - 1)).map fun j => texts (j + 1)).flatten := by
  rcases shiftRows_texts strBuff texts inArray positive holds with ⟨shifted, run, moved⟩
  rw [run]
  exact print_prefix shifted _ (by omega) moved [] (n - 1) (Nat.le_refl _)

end GamZ.Server
