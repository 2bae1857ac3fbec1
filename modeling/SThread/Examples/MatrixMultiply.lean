import SThread.Library.CInt
import SThread.ThreadPool.ForkJoin

namespace SThread.Examples

open SThread.Library
open SThread.ThreadPool

/-!
# Parallel matrix multiplication

The tasks of `matrix_multiply_parallel` are `compute_rows`, one for each thread
of the pool, and each computes some rows of the product.  All three matrices
lie in one memory of elements; nothing is assumed of their arithmetic, so the
parallel product is the sequential one to the last bit.
-/

/--
`matrix_t`; `data` is the address of the first element.  The number of elements
is an `int`, as `matrix_create` computes it.
-/
structure Matrix where
  data : Nat
  rows : Nat
  cols : Nat
  rows_fit : IntType.int.Represents rows
  cols_fit : IntType.int.Represents cols
  elements_fit : IntType.int.Represents (rows * cols : Nat)
  deriving DecidableEq, Repr

namespace Matrix

/-- `row * m->cols + col`. -/
def index
    (m : Matrix)
    (row col : Nat) : CInt .int :=
  CInt.ofInt .int row * CInt.ofInt .int m.cols + CInt.ofInt .int col

/-- The address of `m->data[row * m->cols + col]`. -/
@[irreducible] def cell
    (m : Matrix)
    (row col : Nat) : Nat :=
  m.data + (m.index row col).value.toNat

/-- `matrix_get`. -/
def matrixGet
    {Elem : Type}
    (m : Matrix)
    (row col : Nat)
    (memory : Nat → Elem) : Elem :=
  memory (m.cell row col)

/-- `matrix_set`. -/
def matrixSet
    {Elem : Type}
    (m : Matrix)
    (row col : Nat)
    (val : Elem)
    (memory : Nat → Elem) : Nat → Elem :=
  Function.update memory (m.cell row col) val

/-- Within the matrix nothing overflows in the index. -/
theorem index_is
    {m : Matrix}
    {row col : Nat}
    (inRows : row < m.rows)
    (inCols : col < m.cols) :
    (m.index row col).Is (row * m.cols + col : Nat) := by
  have rowEnd : (row + 1) * m.cols ≤ m.rows * m.cols :=
    Nat.mul_le_mul_right m.cols inRows
  rw [Nat.succ_mul] at rowEnd
  have product : IntType.int.Represents (row * m.cols : Nat) :=
    m.elements_fit.of_le (by omega)
  have sum : IntType.int.Represents (row * m.cols + col : Nat) :=
    m.elements_fit.of_le (by omega)
  rw [Nat.cast_add, Nat.cast_mul] at sum ⊢
  rw [Nat.cast_mul] at product
  exact
    ((CInt.ofInt_is (m.rows_fit.of_le inRows.le)).mul
      (CInt.ofInt_is m.cols_fit) product).add
      (CInt.ofInt_is (m.cols_fit.of_le inCols.le)) sum

/-- So the elements lie row after row. -/
theorem cell_eq
    {m : Matrix}
    {row col : Nat}
    (inRows : row < m.rows)
    (inCols : col < m.cols) :
    m.cell row col = m.data + (row * m.cols + col) := by
  have exactly :
      (m.index row col).value.toNat = row * m.cols + col := by
    rw [(index_is inRows inCols).value]
    exact Int.toNat_natCast _
  unfold cell
  exact congrArg (m.data + ·) exactly

/-- Different elements of a matrix have different addresses. -/
theorem cell_inj
    {m : Matrix}
    {row col row' col' : Nat}
    (inRow : row < m.rows)
    (inRow' : row' < m.rows)
    (inCol : col < m.cols)
    (inCol' : col' < m.cols)
    (same : m.cell row col = m.cell row' col') :
    row = row' ∧ col = col' := by
  have indices : m.cols * row + col = m.cols * row' + col' := by
    rw [cell_eq inRow inCol, cell_eq inRow' inCol', mul_comm row,
      mul_comm row'] at same
    exact Nat.add_left_cancel same
  have rows := congrArg (· / m.cols) indices
  have cols := congrArg (· % m.cols) indices
  simp only [Nat.mul_add_div (Nat.zero_lt_of_lt inCol),
    Nat.div_eq_of_lt inCol, Nat.div_eq_of_lt inCol', Nat.add_zero]
    at rows
  simp only [Nat.mul_add_mod, Nat.mod_eq_of_lt inCol,
    Nat.mod_eq_of_lt inCol'] at cols
  exact ⟨rows, cols⟩

end Matrix

/-- `row_task_t`. -/
structure RowTask where
  A : Matrix
  B : Matrix
  C : Matrix
  startRow : Nat
  endRow : Nat
  deriving DecidableEq, Repr

section Code

variable
    {Elem : Type}
    [Zero Elem]
    [Add Elem]
    [Mul Elem]

/-- The three loops of a product, as far as they have got. -/
inductive RowPlace (Elem : Type) where
  | rows
      (task : RowTask)
      (i : Nat)
  | cols
      (task : RowTask)
      (i j : Nat)
  | sums
      (task : RowTask)
      (i j k : Nat)
      (sum : Elem)
  | product
      (task : RowTask)
      (i j k : Nat)
      (sum left : Elem)
  | done

instance : Inhabited (RowPlace Elem) :=
  ⟨.done⟩

/-- One step of `compute_rows`; each reads or writes one element at most. -/
def computeRowsStep :
    RowPlace Elem → (Nat → Elem) → Option (RowPlace Elem × (Nat → Elem))
  | .rows task i, memory =>
      if i < task.endRow then
        some (.cols task i 0, memory)
      else
        some (.done, memory)
  | .cols task i j, memory =>
      if j < task.B.cols then
        some (.sums task i j 0 0, memory)
      else
        some (.rows task (i + 1), memory)
  | .sums task i j k sum, memory =>
      if k < task.A.cols then
        some (.product task i j k sum (task.A.matrixGet i k memory), memory)
      else
        some (.cols task i (j + 1), task.C.matrixSet i j sum memory)
  | .product task i j k sum left, memory =>
      some
        (.sums task i j (k + 1) (sum + left * task.B.matrixGet k j memory),
          memory)
  | .done, _ => none

/-- The only task function is `compute_rows`. -/
def computeRows
    (Elem : Type)
    [Zero Elem]
    [Add Elem]
    [Mul Elem] :
    TaskCode Unit RowTask (RowPlace Elem) (Nat → Elem) where
  enter _ task := .rows task task.startRow
  step place memory later memory' :=
    computeRowsStep place memory = some (later, memory')
  returns place := place = .done

/-- The innermost loop, from `k` on. -/
def sumFrom
    (A B : Matrix)
    (i j k : Nat)
    (sum : Elem)
    (memory : Nat → Elem) : Elem :=
  (List.range' k (A.cols - k)).foldl
    (fun sum k => sum + A.matrixGet i k memory * B.matrixGet k j memory)
    sum

/-- The loop over the columns, from `j` on. -/
def colsFrom
    (A B C : Matrix)
    (i j : Nat)
    (memory : Nat → Elem) : Nat → Elem :=
  (List.range' j (B.cols - j)).foldl
    (fun memory j => C.matrixSet i j (sumFrom A B i j 0 0 memory) memory)
    memory

/-- The loop over the rows, from `i` up to a bound. -/
def rowsFrom
    (A B C : Matrix)
    (i bound : Nat)
    (memory : Nat → Elem) : Nat → Elem :=
  (List.range' i (bound - i)).foldl
    (fun memory i => colsFrom A B C i 0 memory)
    memory

/-- `matrix_multiply_sequential`. -/
def matrixMultiplySequential
    (A B C : Matrix)
    (memory : Nat → Elem) : Nat → Elem :=
  rowsFrom A B C 0 A.rows memory

/-- The rest of a loop is its next round and the rest after it. -/
theorem foldl_range'_step
    {State : Type}
    (round : State → Nat → State)
    (state : State)
    {from_ bound : Nat}
    (goesOn : from_ < bound) :
    (List.range' from_ (bound - from_)).foldl round state =
      (List.range' (from_ + 1) (bound - (from_ + 1))).foldl round
        (round state from_) := by
  have more : bound - from_ = (bound - (from_ + 1)) + 1 := by
    omega
  rw [more, List.range'_succ, List.foldl_cons]

/-- What is left of `compute_rows` from some place on. -/
def RowPlace.rest :
    RowPlace Elem → (Nat → Elem) → (Nat → Elem)
  | .rows task i, memory =>
      rowsFrom task.A task.B task.C i task.endRow memory
  | .cols task i j, memory =>
      rowsFrom task.A task.B task.C (i + 1) task.endRow
        (colsFrom task.A task.B task.C i j memory)
  | .sums task i j k sum, memory =>
      rowsFrom task.A task.B task.C (i + 1) task.endRow
        (colsFrom task.A task.B task.C i (j + 1)
          (task.C.matrixSet i j (sumFrom task.A task.B i j k sum memory)
            memory))
  | .product task i j k sum left, memory =>
      rowsFrom task.A task.B task.C (i + 1) task.endRow
        (colsFrom task.A task.B task.C i (j + 1)
          (task.C.matrixSet i j
            (sumFrom task.A task.B i j (k + 1)
              (sum + left * task.B.matrixGet k j memory) memory)
            memory))
  | .done, memory => memory

/-- What is left to do and what has been done stay the same together. -/
theorem computeRowsStep_rest
    {place later : RowPlace Elem}
    {memory memory' : Nat → Elem}
    (step : computeRowsStep place memory = some (later, memory')) :
    later.rest memory' = place.rest memory := by
  cases place with
  | rows task i =>
      simp only [computeRowsStep] at step
      split at step
      · rename_i goesOn
        cases step
        simp only [RowPlace.rest, rowsFrom]
        rw [foldl_range'_step _ _ goesOn]
      · rename_i stops
        cases step
        simp only [RowPlace.rest, rowsFrom]
        rw [Nat.sub_eq_zero_of_le (Nat.le_of_not_lt stops)]
        rfl
  | cols task i j =>
      simp only [computeRowsStep] at step
      split at step
      · rename_i goesOn
        cases step
        simp only [RowPlace.rest]
        rw [colsFrom, colsFrom, foldl_range'_step _ _ goesOn]
      · rename_i stops
        cases step
        simp only [RowPlace.rest]
        rw [colsFrom, Nat.sub_eq_zero_of_le (Nat.le_of_not_lt stops)]
        rfl
  | sums task i j k sum =>
      simp only [computeRowsStep] at step
      split at step
      · rename_i goesOn
        cases step
        simp only [RowPlace.rest]
        rw [sumFrom, sumFrom, foldl_range'_step _ _ goesOn]
      · rename_i stops
        cases step
        simp only [RowPlace.rest]
        rw [sumFrom, Nat.sub_eq_zero_of_le (Nat.le_of_not_lt stops)]
        rfl
  | product task i j k sum left =>
      simp only [computeRowsStep] at step
      cases step
      rfl
  | done =>
      cases step

/-- A call of `compute_rows` does what its loops say. -/
theorem computeRows_runs
    (task : Unit × Job RowTask)
    (memory memory' : Nat → Elem)
    (runs : ((computeRows Elem).program task).Runs memory memory') :
    memory' =
      rowsFrom task.2.arg.A task.2.arg.B task.2.arg.C
        task.2.arg.startRow task.2.arg.endRow memory := by
  obtain ⟨place, course, rfl⟩ := runs
  have same :
      RowPlace.rest .done memory' =
        RowPlace.rest (.rows task.2.arg task.2.arg.startRow) memory := by
    generalize (RowPlace.done : RowPlace Elem) = last at course
    induction course with
    | refl =>
        rfl
    | step course step inductionHypothesis =>
        exact (computeRowsStep_rest step).trans inductionHypothesis
  exact same

/-- The innermost loop ends, and the sum is stored. -/
theorem sums_course
    (task : Unit × Job RowTask)
    (here : RowTask)
    (i j k : Nat)
    (sum : Elem)
    (memory : Nat → Elem) :
    ((computeRows Elem).program task).Course
      (.sums here i j k sum) memory (.cols here i (j + 1))
      (here.C.matrixSet i j (sumFrom here.A here.B i j k sum memory)
        memory) := by
  induction left : here.A.cols - k generalizing k sum with
  | zero =>
      have stops : ¬ k < here.A.cols := by
        omega
      refine .step .refl ?_
      simp [TaskCode.program, computeRows, computeRowsStep, stops,
        sumFrom, left]
  | succ left inductionHypothesis =>
      have goesOn : k < here.A.cols := by
        omega
      have rest :=
        inductionHypothesis (k + 1)
          (sum + here.A.matrixGet i k memory * here.B.matrixGet k j memory)
          (by omega)
      have factors :
          ((computeRows Elem).program task).Course
            (.sums here i j k sum) memory
            (.product here i j k sum (here.A.matrixGet i k memory))
            memory := by
        refine .step .refl ?_
        simp [TaskCode.program, computeRows, computeRowsStep, goesOn]
      rw [sumFrom, foldl_range'_step _ _ goesOn]
      exact (factors.step rfl).trans rest

/-- The loop over the columns ends. -/
theorem cols_course
    (task : Unit × Job RowTask)
    (here : RowTask)
    (i j : Nat)
    (memory : Nat → Elem) :
    ((computeRows Elem).program task).Course
      (.cols here i j) memory (.rows here (i + 1))
      (colsFrom here.A here.B here.C i j memory) := by
  induction left : here.B.cols - j generalizing j memory with
  | zero =>
      have stops : ¬ j < here.B.cols := by
        omega
      refine .step .refl ?_
      simp [TaskCode.program, computeRows, computeRowsStep, stops,
        colsFrom, left]
  | succ left inductionHypothesis =>
      have goesOn : j < here.B.cols := by
        omega
      rw [colsFrom, foldl_range'_step _ _ goesOn]
      refine Program.Course.trans
        (.trans (.step .refl ?_) (sums_course task here i j 0 0 memory))
        (inductionHypothesis (j + 1) _ (by omega))
      simp [TaskCode.program, computeRows, computeRowsStep, goesOn]

/-- The loop over the rows ends. -/
theorem rows_course
    (task : Unit × Job RowTask)
    (here : RowTask)
    (i : Nat)
    (memory : Nat → Elem) :
    ((computeRows Elem).program task).Course
      (.rows here i) memory .done
      (rowsFrom here.A here.B here.C i here.endRow memory) := by
  induction left : here.endRow - i generalizing i memory with
  | zero =>
      have stops : ¬ i < here.endRow := by
        omega
      refine .step .refl ?_
      simp [TaskCode.program, computeRows, computeRowsStep, stops,
        rowsFrom, left]
  | succ left inductionHypothesis =>
      have goesOn : i < here.endRow := by
        omega
      rw [rowsFrom, foldl_range'_step _ _ goesOn]
      refine Program.Course.trans
        (.trans (.step .refl ?_) (cols_course task here i 0 memory))
        (inductionHypothesis (i + 1) _ (by omega))
      simp [TaskCode.program, computeRows, computeRowsStep, goesOn]

/-- So from wherever it is `compute_rows` comes to its end. -/
theorem RowPlace.course
    (task : Unit × Job RowTask)
    (place : RowPlace Elem)
    (memory : Nat → Elem) :
    ((computeRows Elem).program task).Course
      place memory .done (place.rest memory) := by
  cases place with
  | rows here i =>
      exact rows_course task here i memory
  | cols here i j =>
      exact (cols_course task here i j memory).trans
        (rows_course task here (i + 1) _)
  | sums here i j k sum =>
      exact ((sums_course task here i j k sum memory).trans
        (cols_course task here i (j + 1) _)).trans
          (rows_course task here (i + 1) _)
  | product here i j k sum left =>
      exact (((Program.Course.step .refl rfl).trans
        (sums_course task here i j (k + 1) _ memory)).trans
          (cols_course task here i (j + 1) _)).trans
            (rows_course task here (i + 1) _)
  | done =>
      exact .refl

end Code

section Cells

/-- The product of two matrices fits a third, whose memory is its own. -/
structure Multipliable (A B C : Matrix) : Prop where
  inner :
    A.cols = B.rows
  rows :
    C.rows = A.rows
  cols :
    C.cols = B.cols
  apartA :
    ∀ row col row' col',
      row < C.rows → col < C.cols →
      row' < A.rows → col' < A.cols →
      C.cell row col ≠ A.cell row' col'
  apartB :
    ∀ row col row' col',
      row < C.rows → col < C.cols →
      row' < B.rows → col' < B.cols →
      C.cell row col ≠ B.cell row' col'

/-- The elements of some rows of a product. -/
def productCells
    (B C : Matrix)
    (rows : Nat → Prop) : Set Nat :=
  { address |
    ∃ i j, rows i ∧ j < B.cols ∧ address = C.cell i j }

/-- The elements that `compute_rows` reads. -/
def sourceCells
    (A B : Matrix) : Set Nat :=
  { address |
    (∃ i k, i < A.rows ∧ k < A.cols ∧ address = A.cell i k) ∨
      ∃ k j, k < B.rows ∧ j < B.cols ∧ address = B.cell k j }

/-- The rows of a task. -/
def RowTask.Has
    (task : RowTask)
    (i : Nat) : Prop :=
  task.startRow ≤ i ∧ i < task.endRow

/-- A task of a product. -/
structure RowTask.Of
    (A B C : Matrix)
    (task : RowTask) : Prop where
  left :
    task.A = A
  right :
    task.B = B
  result :
    task.C = C
  fits :
    task.endRow ≤ A.rows

/-- The product is written to cells of its own. -/
theorem Multipliable.disjoint
    {A B C : Matrix}
    (multipliable : Multipliable A B C)
    {rows : Nat → Prop}
    (fits : ∀ i, rows i → i < A.rows) :
    Disjoint (productCells B C rows) (sourceCells A B) := by
  rw [Set.disjoint_left]
  rintro address ⟨i, j, isRow, isCol, rfl⟩ source
  have inRows : i < C.rows := by
    rw [multipliable.rows]
    exact fits i isRow
  have inCols : j < C.cols := by
    rw [multipliable.cols]
    exact isCol
  rcases source with ⟨row, col, inRow, inCol, same⟩ |
    ⟨row, col, inRow, inCol, same⟩
  · exact multipliable.apartA i j row col inRows inCols inRow inCol same
  · exact multipliable.apartB i j row col inRows inCols inRow inCol same

/-- Different rows of the product have different cells. -/
theorem Multipliable.rows_disjoint
    {A B C : Matrix}
    (multipliable : Multipliable A B C)
    {rows rows' : Nat → Prop}
    (fits : ∀ i, rows i → i < A.rows)
    (fits' : ∀ i, rows' i → i < A.rows)
    (apart : ∀ i, rows i → ¬ rows' i) :
    Disjoint (productCells B C rows) (productCells B C rows') := by
  rw [Set.disjoint_left]
  rintro address ⟨i, j, isRow, isCol, rfl⟩ ⟨i', j', isRow', isCol', same⟩
  have inRows := fits i isRow
  have inRows' := fits' i' isRow'
  rw [← multipliable.rows] at inRows inRows'
  rw [← multipliable.cols] at isCol isCol'
  obtain ⟨rfl, _⟩ :=
    Matrix.cell_inj inRows inRows' isCol isCol' same
  exact apart i isRow isRow'

end Cells

section Tasks

variable
    {Elem : Type}
    [Zero Elem]
    [Add Elem]
    [Mul Elem]
    {A B C : Matrix}

/-- Where a call of `compute_rows` can be. -/
def RowPlace.Inside
    (task : RowTask) : RowPlace Elem → Prop
  | .rows here i => here = task ∧ task.startRow ≤ i
  | .cols here i _ => here = task ∧ task.Has i
  | .sums here i j _ _ => here = task ∧ task.Has i ∧ j < task.B.cols
  | .product here i j k _ _ =>
      here = task ∧ task.Has i ∧ j < task.B.cols ∧ k < task.A.cols
  | .done => True

/-- It stays between its bounds. -/
theorem computeRows_visits
    {task : Unit × Job RowTask}
    {place : RowPlace Elem}
    (visited : ((computeRows Elem).program task).Visits place) :
    place.Inside task.2.arg := by
  induction visited with
  | entry =>
      exact ⟨rfl, le_rfl⟩
  | @step place later memory memory' visited step inductionHypothesis =>
      have step : computeRowsStep place memory = some (later, memory') :=
        step
      cases place with
      | rows here i =>
          obtain ⟨rfl, start⟩ := inductionHypothesis
          simp only [computeRowsStep] at step
          split at step
          · rename_i goesOn
            cases step
            exact ⟨rfl, start, goesOn⟩
          · cases step
            trivial
      | cols here i j =>
          obtain ⟨rfl, has⟩ := inductionHypothesis
          simp only [computeRowsStep] at step
          split at step
          · rename_i goesOn
            cases step
            exact ⟨rfl, has, goesOn⟩
          · cases step
            exact ⟨rfl, Nat.le_succ_of_le has.1⟩
      | sums here i j k sum =>
          obtain ⟨rfl, has, inCols⟩ := inductionHypothesis
          simp only [computeRowsStep] at step
          split at step
          · rename_i goesOn
            cases step
            exact ⟨rfl, has, inCols, goesOn⟩
          · cases step
            exact ⟨rfl, has⟩
      | product here i j k sum left =>
          obtain ⟨rfl, has, inCols, _⟩ := inductionHypothesis
          cases step
          exact ⟨rfl, has, inCols⟩
      | done =>
          cases step

/-- A call of `compute_rows` changes its own rows of the product only. -/
theorem computeRows_confined
    {task : Unit × Job RowTask}
    (multipliable : Multipliable A B C)
    (isTask : task.2.arg.Of A B C) :
    ((computeRows Elem).program task).Confined
      (sourceCells A B ∪ productCells B C task.2.arg.Has)
      (productCells B C task.2.arg.Has) where
  within :=
    Set.subset_union_right
  frame place later memory memory' visited step address elsewhere := by
    have inside := computeRows_visits visited
    have step : computeRowsStep place memory = some (later, memory') :=
      step
    cases place with
    | rows here i
    | cols here i j =>
        simp only [computeRowsStep] at step
        split at step <;> cases step <;> rfl
    | sums here i j k sum =>
        obtain ⟨rfl, has, inCols⟩ := inside
        simp only [computeRowsStep] at step
        split at step
        · cases step
          rfl
        · cases step
          refine Function.update_of_ne ?_ _ _
          rintro rfl
          refine elsewhere ⟨i, j, has, ?_, ?_⟩
          · rw [← isTask.right]
            exact inCols
          · rw [isTask.result]
    | product here i j k sum left =>
        cases step
        rfl
    | done =>
        cases step
  determined place later memory memory' other visited step agree := by
    have inside := computeRows_visits visited
    have step : computeRowsStep place memory = some (later, memory') :=
      step
    have unchanged :
        ∀ address ∈ productCells B C task.2.arg.Has,
          other address = memory address :=
      fun address member => agree address (Or.inr member)
    have read :
        ∀ address ∈ sourceCells A B, other address = memory address :=
      fun address member => agree address (Or.inl member)
    cases place with
    | rows here i
    | cols here i j =>
        simp only [computeRowsStep] at step
        split at step
        · rename_i goesOn
          cases step
          refine ⟨other, ?_, unchanged⟩
          simp [TaskCode.program, computeRows, computeRowsStep, goesOn]
        · rename_i stops
          cases step
          refine ⟨other, ?_, unchanged⟩
          simp [TaskCode.program, computeRows, computeRowsStep, stops]
    | sums here i j k sum =>
        obtain ⟨rfl, has, inCols⟩ := inside
        simp only [computeRowsStep] at step
        split at step
        · rename_i goesOn
          cases step
          refine ⟨other, ?_, unchanged⟩
          have same :
              task.2.arg.A.matrixGet i k other =
                task.2.arg.A.matrixGet i k memory := by
            refine read _ (Or.inl ⟨i, k, ?_, ?_, ?_⟩)
            · exact has.2.trans_le isTask.fits
            · rw [← isTask.left]
              exact goesOn
            · rw [isTask.left]
          simp [TaskCode.program, computeRows, computeRowsStep, goesOn,
            same]
        · rename_i stops
          cases step
          refine ⟨task.2.arg.C.matrixSet i j sum other, ?_, ?_⟩
          · simp [TaskCode.program, computeRows, computeRowsStep, stops]
          · intro address member
            unfold Matrix.matrixSet
            by_cases here : address = task.2.arg.C.cell i j
            · rw [here, Function.update_self, Function.update_self]
            · rw [Function.update_of_ne here, Function.update_of_ne here]
              exact unchanged address member
    | product here i j k sum left =>
        obtain ⟨rfl, has, inCols, inner⟩ := inside
        cases step
        refine ⟨other, ?_, unchanged⟩
        have same :
            task.2.arg.B.matrixGet k j other =
              task.2.arg.B.matrixGet k j memory := by
          refine read _ (Or.inr ⟨k, j, ?_, ?_, ?_⟩)
          · rw [← multipliable.inner, ← isTask.left]
            exact inner
          · rw [← isTask.right]
            exact inCols
          · rw [isTask.right]
        simp [TaskCode.program, computeRows, computeRowsStep, same]
    | done =>
        cases step

/-- Calls for different rows are independent. -/
theorem computeRows_independent
    {task task' : Unit × Job RowTask}
    (multipliable : Multipliable A B C)
    (isTask : task.2.arg.Of A B C)
    (isTask' : task'.2.arg.Of A B C)
    (apart : ∀ i, task.2.arg.Has i → ¬ task'.2.arg.Has i) :
    ((computeRows Elem).program task).Independent
      ((computeRows Elem).program task') := by
  have fits : ∀ i, task.2.arg.Has i → i < A.rows :=
    fun i has => has.2.trans_le isTask.fits
  have fits' : ∀ i, task'.2.arg.Has i → i < A.rows :=
    fun i has => has.2.trans_le isTask'.fits
  refine (computeRows_confined multipliable isTask).independent
    (computeRows_confined multipliable isTask') ?_ ?_
  · rw [Set.disjoint_union_right]
    exact ⟨multipliable.disjoint fits,
      multipliable.rows_disjoint fits fits' apart⟩
  · rw [Set.disjoint_union_right]
    exact ⟨multipliable.disjoint fits',
      multipliable.rows_disjoint fits' fits
        (fun i has' has => apart i has has')⟩

end Tasks

section Product

variable
    {Elem : Type}
    [Zero Elem]
    [Add Elem]
    [Mul Elem]
    {A B C : Matrix}
    {memory between memory' : Nat → Elem}

/-- Some elements of the product are computed, and nothing else has changed. -/
structure Multiplied
    (A B C : Matrix)
    (cells : Nat → Nat → Prop)
    (memory memory' : Nat → Elem) : Prop where
  computed :
    ∀ i j,
      cells i j →
      memory' (C.cell i j) = sumFrom A B i j 0 0 memory
  others :
    ∀ address,
      (∀ i j, cells i j → address ≠ C.cell i j) →
      memory' address = memory address

/-- Elements of the product. -/
def InProduct
    (A B : Matrix)
    (cells : Nat → Nat → Prop) : Prop :=
  ∀ i j, cells i j → i < A.rows ∧ j < B.cols

/-- A sum only depends on the two factors. -/
theorem sumFrom_congr
    (multipliable : Multipliable A B C)
    {i j : Nat}
    (isRow : i < A.rows)
    (isCol : j < B.cols)
    (same : ∀ address ∈ sourceCells A B, between address = memory address) :
    sumFrom A B i j 0 0 between = sumFrom A B i j 0 0 memory := by
  unfold sumFrom
  refine List.foldl_ext _ _ _ ?_
  intro sum k member
  have inner : k < A.cols := by
    rw [List.mem_range'_1] at member
    omega
  have left : A.matrixGet i k between = A.matrixGet i k memory :=
    same _ (Or.inl ⟨i, k, isRow, inner, rfl⟩)
  have right : B.matrixGet k j between = B.matrixGet k j memory := by
    refine same _ (Or.inr ⟨k, j, ?_, isCol, rfl⟩)
    rw [← multipliable.inner]
    exact inner
  rw [left, right]

/-- Computing the product does not change its factors. -/
theorem Multiplied.sources
    {cells : Nat → Nat → Prop}
    (multiplied : Multiplied A B C cells memory memory')
    (multipliable : Multipliable A B C)
    (inProduct : InProduct A B cells)
    {address : Nat}
    (source : address ∈ sourceCells A B) :
    memory' address = memory address := by
  refine multiplied.others address ?_
  rintro i j isCell rfl
  obtain ⟨isRow, isCol⟩ := inProduct i j isCell
  exact Set.disjoint_left.mp
    (multipliable.disjoint (fun _ => id)) ⟨i, j, isRow, isCol, rfl⟩ source

/-- What is computed may be described in another way. -/
theorem Multiplied.congr
    {cells cells' : Nat → Nat → Prop}
    (multiplied : Multiplied A B C cells memory memory')
    (same : ∀ i j, cells i j ↔ cells' i j) :
    Multiplied A B C cells' memory memory' where
  computed i j isCell :=
    multiplied.computed i j ((same i j).mpr isCell)
  others address elsewhere :=
    multiplied.others address
      (fun i j isCell => elsewhere i j ((same i j).mp isCell))

/-- First some elements, then some more. -/
theorem Multiplied.trans
    {cells cells' : Nat → Nat → Prop}
    (multipliable : Multipliable A B C)
    (inProduct : InProduct A B cells)
    (inProduct' : InProduct A B cells')
    (first : Multiplied A B C cells memory between)
    (second : Multiplied A B C cells' between memory') :
    Multiplied A B C (fun i j => cells i j ∨ cells' i j)
      memory memory' where
  computed := by
    intro i j isCell
    by_cases isSecond : cells' i j
    · rw [second.computed i j isSecond]
      obtain ⟨isRow, isCol⟩ := inProduct' i j isSecond
      exact sumFrom_congr multipliable isRow isCol
        (fun address source =>
          first.sources multipliable inProduct source)
    · have isFirst := isCell.resolve_right isSecond
      rw [second.others _ ?_, first.computed i j isFirst]
      intro i' j' isCell' same
      obtain ⟨isRow, isCol⟩ := inProduct i j isFirst
      obtain ⟨isRow', isCol'⟩ := inProduct' i' j' isCell'
      rw [← multipliable.rows] at isRow isRow'
      rw [← multipliable.cols] at isCol isCol'
      obtain ⟨rfl, rfl⟩ :=
        Matrix.cell_inj isRow isRow' isCol isCol' same
      exact isSecond isCell'
  others := by
    intro address elsewhere
    rw [second.others address
        (fun i j isCell => elsewhere i j (Or.inr isCell)),
      first.others address
        (fun i j isCell => elsewhere i j (Or.inl isCell))]

/-- A loop computes what its rounds compute. -/
theorem multiplied_foldl
    {Item : Type}
    (multipliable : Multipliable A B C)
    (round : (Nat → Elem) → Item → (Nat → Elem))
    (cells : Item → Nat → Nat → Prop)
    (items : List Item)
    (inProduct : ∀ item ∈ items, InProduct A B (cells item))
    (rounds :
      ∀ item ∈ items,
        ∀ memory : Nat → Elem,
          Multiplied A B C (cells item) memory (round memory item))
    (memory : Nat → Elem) :
    Multiplied A B C (fun i j => ∃ item ∈ items, cells item i j)
      memory (items.foldl round memory) := by
  induction items generalizing memory with
  | nil =>
      constructor
      · rintro i j ⟨item, member, _⟩
        exact absurd member List.not_mem_nil
      · intro address _
        rfl
  | cons head rest inductionHypothesis =>
      have first := rounds head List.mem_cons_self memory
      have second :=
        inductionHypothesis
          (fun item member => inProduct item (List.mem_cons_of_mem _ member))
          (fun item member => rounds item (List.mem_cons_of_mem _ member))
          (round memory head)
      have both := Multiplied.trans multipliable
        (inProduct head List.mem_cons_self)
        (by
          rintro i j ⟨item, member, isCell⟩
          exact inProduct item (List.mem_cons_of_mem _ member) i j isCell)
        first second
      refine both.congr ?_
      intro i j
      simp

/-- Storing one sum computes one element. -/
theorem multiplied_matrixSet
    (i j : Nat)
    (memory : Nat → Elem) :
    Multiplied A B C (fun i' j' => i' = i ∧ j' = j) memory
      (C.matrixSet i j (sumFrom A B i j 0 0 memory) memory) where
  computed := by
    rintro i' j' ⟨rfl, rfl⟩
    exact Function.update_self _ _ _
  others := by
    intro address elsewhere
    exact Function.update_of_ne (elsewhere i j ⟨rfl, rfl⟩) _ _

/-- The loop over the columns computes one row. -/
theorem multiplied_colsFrom
    (multipliable : Multipliable A B C)
    {i : Nat}
    (isRow : i < A.rows)
    (memory : Nat → Elem) :
    Multiplied A B C (fun i' j => i' = i ∧ j < B.cols) memory
      (colsFrom A B C i 0 memory) := by
  have columns := multiplied_foldl multipliable
    (fun memory j => C.matrixSet i j (sumFrom A B i j 0 0 memory) memory)
    (fun j i' j' => i' = i ∧ j' = j)
    (List.range' 0 (B.cols - 0))
    (by
      rintro j member i' j' ⟨rfl, rfl⟩
      rw [List.mem_range'_1] at member
      exact ⟨isRow, by omega⟩)
    (fun j _ memory => multiplied_matrixSet i j memory)
    memory
  refine columns.congr ?_
  intro i' j
  constructor
  · rintro ⟨j', member, rfl, rfl⟩
    rw [List.mem_range'_1] at member
    exact ⟨rfl, by omega⟩
  · rintro ⟨rfl, isCol⟩
    refine ⟨j, ?_, rfl, rfl⟩
    rw [List.mem_range'_1]
    omega

/-- The loop over the rows computes all of them. -/
theorem multiplied_rowsFrom
    (multipliable : Multipliable A B C)
    {start bound : Nat}
    (fits : bound ≤ A.rows)
    (memory : Nat → Elem) :
    Multiplied A B C
      (fun i j => (start ≤ i ∧ i < bound) ∧ j < B.cols) memory
      (rowsFrom A B C start bound memory) := by
  have inRange :
      ∀ i ∈ List.range' start (bound - start), start ≤ i ∧ i < bound := by
    intro i member
    rw [List.mem_range'_1] at member
    omega
  have rows := multiplied_foldl multipliable
    (fun memory i => colsFrom A B C i 0 memory)
    (fun i i' j => i' = i ∧ j < B.cols)
    (List.range' start (bound - start))
    (by
      rintro i member i' j ⟨rfl, isCol⟩
      exact ⟨(inRange i' member).2.trans_le fits, isCol⟩)
    (fun i member memory =>
      multiplied_colsFrom multipliable
        ((inRange i member).2.trans_le fits) memory)
    memory
  refine rows.congr ?_
  intro i' j
  constructor
  · rintro ⟨i, member, rfl, isCol⟩
    exact ⟨inRange i' member, isCol⟩
  · rintro ⟨inside, isCol⟩
    refine ⟨i', ?_, rfl, isCol⟩
    rw [List.mem_range'_1]
    omega

/-- There is one way to compute some elements of the product. -/
theorem Multiplied.unique
    {cells : Nat → Nat → Prop}
    (first : Multiplied A B C cells memory between)
    (second : Multiplied A B C cells memory memory') :
    between = memory' := by
  funext address
  by_cases isCell : ∃ i j, cells i j ∧ address = C.cell i j
  · obtain ⟨i, j, isCell, rfl⟩ := isCell
    rw [first.computed i j isCell, second.computed i j isCell]
  · have elsewhere : ∀ i j, cells i j → address ≠ C.cell i j :=
      fun i j isCell' here => isCell ⟨i, j, isCell', here⟩
    rw [first.others address elsewhere, second.others address elsewhere]

end Product

section Partition

/-- `tasks[t]` of `matrix_multiply_parallel`. -/
def rowTask
    (A B C : Matrix)
    (numThreads t : Nat) : RowTask where
  A := A
  B := B
  C := C
  startRow := t * (A.rows / numThreads)
  endRow :=
    if t = numThreads - 1 then
      A.rows
    else
      (t + 1) * (A.rows / numThreads)

variable
    {A B C : Matrix}
    {numThreads t t' : Nat}

/-- A task ends where the next one starts, or with the last row. -/
theorem rowTask_endRow_le
    (inRange : t < numThreads)
    (bound : t < t' ∧ t' ≤ numThreads) :
    (rowTask A B C numThreads t).endRow ≤
      if t' = numThreads then
        A.rows
      else
        t' * (A.rows / numThreads) := by
  have all : numThreads * (A.rows / numThreads) ≤ A.rows :=
    Nat.mul_div_le A.rows numThreads
  have upTo :
      (t + 1) * (A.rows / numThreads) ≤ t' * (A.rows / numThreads) :=
    Nat.mul_le_mul_right _ bound.1
  have whole :
      (t + 1) * (A.rows / numThreads) ≤
        numThreads * (A.rows / numThreads) :=
    Nat.mul_le_mul_right _ inRange
  simp only [rowTask]
  split <;> split <;> omega

/-- Every task is a task of the product. -/
theorem rowTask_of
    (inRange : t < numThreads) :
    (rowTask A B C numThreads t).Of A B C where
  left := rfl
  right := rfl
  result := rfl
  fits := by
    have below := rowTask_endRow_le (A := A) (B := B) (C := C) inRange
      ⟨inRange, le_rfl⟩
    rwa [if_pos rfl] at below

/-- No row belongs to two tasks. -/
theorem rowTask_apart
    (inRange : t < numThreads)
    (inRange' : t' < numThreads)
    (different : t ≠ t')
    {i : Nat}
    (has : (rowTask A B C numThreads t).Has i) :
    ¬ (rowTask A B C numThreads t').Has i := by
  intro has'
  rcases Nat.lt_or_gt_of_ne different with before | after
  · have below := rowTask_endRow_le (A := A) (B := B) (C := C) inRange
      ⟨before, inRange'.le⟩
    rw [if_neg inRange'.ne] at below
    have start : t' * (A.rows / numThreads) ≤ i := has'.1
    have stop := has.2
    omega
  · have below := rowTask_endRow_le (A := A) (B := B) (C := C) inRange'
      ⟨after, inRange.le⟩
    rw [if_neg inRange.ne] at below
    have start : t * (A.rows / numThreads) ≤ i := has.1
    have stop := has'.2
    omega

/-- Every row belongs to some task. -/
theorem exists_rowTask_has
    (positive : 0 < numThreads)
    {i : Nat}
    (isRow : i < A.rows) :
    ∃ t < numThreads, (rowTask A B C numThreads t).Has i := by
  by_cases late : (numThreads - 1) * (A.rows / numThreads) ≤ i
  · refine ⟨numThreads - 1, by omega, late, ?_⟩
    simpa [rowTask] using isRow
  · have early := Nat.lt_of_not_le late
    have some : 0 < A.rows / numThreads := by
      refine Nat.pos_of_ne_zero ?_
      intro none
      rw [none, Nat.mul_zero] at early
      exact Nat.not_lt_zero _ early
    have below : i / (A.rows / numThreads) < numThreads - 1 :=
      Nat.div_lt_of_lt_mul (by rwa [mul_comm] at early)
    refine ⟨i / (A.rows / numThreads), by omega,
      Nat.div_mul_le_self _ _, ?_⟩
    simp only [rowTask, if_neg below.ne]
    rw [mul_comm]
    exact Nat.lt_mul_div_succ i some

end Partition

section Parallel

variable
    {Elem : Type}
    [Zero Elem]
    [Add Elem]
    [Mul Elem]
    {A B C : Matrix}
    {config : Config}

/-- What `matrix_multiply_parallel` has submitted when its loop is over. -/
def rowTasks
    (A B C : Matrix)
    (numThreads : Nat) : List (Unit × RowTask) :=
  (List.range numThreads).map fun t => ((), rowTask A B C numThreads t)

/-- The task with some number is the one for the rows of that number. -/
theorem task_of_rowTasks
    {history : History Unit RowTask}
    {numThreads id : Nat}
    (submissions : history.submissions = rowTasks A B C numThreads)
    {task : Unit × Job RowTask}
    (isTask : history.task id = some task) :
    id < numThreads ∧ task.2.arg = rowTask A B C numThreads id := by
  rw [History.task, submissions, rowTasks, List.getElem?_map,
    Option.map_map] at isTask
  by_cases inRange : id < numThreads
  · rw [List.getElem?_range inRange] at isTask
    cases isTask
    exact ⟨inRange, rfl⟩
  · rw [List.getElem?_eq_none (by simpa using inRange)] at isTask
    contradiction

/-- The tasks of some submissions are tasks of the product. -/
theorem acknowledged_of
    {history : History Unit RowTask}
    {numThreads : Nat}
    (submissions : history.submissions = rowTasks A B C numThreads)
    {ids : List Nat}
    {task : Unit × Job RowTask}
    (member : task ∈ ids.filterMap history.task) :
    task.2.arg.Of A B C ∧
      ∃ t ∈ ids,
        t < numThreads ∧ task.2.arg = rowTask A B C numThreads t := by
  obtain ⟨id, isId, isTask⟩ := List.mem_filterMap.mp member
  obtain ⟨inRange, argIs⟩ := task_of_rowTasks submissions isTask
  refine ⟨?_, id, isId, inRange, argIs⟩
  rw [argIs]
  exact rowTask_of inRange

/-- Together they have the rows of those submissions. -/
theorem acknowledged_has
    {history : History Unit RowTask}
    {numThreads : Nat}
    (submissions : history.submissions = rowTasks A B C numThreads)
    {ids : List Nat}
    (i : Nat) :
    (∃ task ∈ ids.filterMap history.task, task.2.arg.Has i) ↔
      ∃ t ∈ ids,
        t < numThreads ∧ (rowTask A B C numThreads t).Has i := by
  constructor
  · rintro ⟨task, member, has⟩
    obtain ⟨_, id, isId, inRange, argIs⟩ :=
      acknowledged_of submissions member
    rw [argIs] at has
    exact ⟨id, isId, inRange, has⟩
  · rintro ⟨id, isId, inRange, has⟩
    refine ⟨((), ⟨id, rowTask A B C numThreads id⟩), ?_, has⟩
    refine List.mem_filterMap.mpr ⟨id, isId, ?_⟩
    rw [History.task, submissions, rowTasks, List.getElem?_map,
      List.getElem?_range inRange]
    rfl

/-- Tasks of the product compute their rows when they run one after the other. -/
theorem serially_multiplied
    (multipliable : Multipliable A B C)
    {tasks : List (Unit × Job RowTask)}
    (of : ∀ task ∈ tasks, task.2.arg.Of A B C)
    {memory memory' : Nat → Elem}
    (serially :
      Program.Serially (tasks.map (computeRows Elem).program)
        memory memory') :
    Multiplied A B C
      (fun i j => (∃ task ∈ tasks, task.2.arg.Has i) ∧ j < B.cols)
      memory memory' := by
  rw [Program.Serially.foldl computeRows_runs serially]
  refine (multiplied_foldl multipliable _
    (fun task i j => task.2.arg.Has i ∧ j < B.cols) tasks ?_ ?_
    memory).congr ?_
  · rintro task member i j ⟨has, isCol⟩
    exact ⟨has.2.trans_le (of task member).fits, isCol⟩
  · intro task member memory
    obtain ⟨left, right, result, fits⟩ := of task member
    rw [left, right, result]
    exact multiplied_rowsFrom multipliable fits memory
  · intro i j
    constructor
    · rintro ⟨task, member, has, isCol⟩
      exact ⟨⟨task, member, has⟩, isCol⟩
    · rintro ⟨⟨task, member, has⟩, isCol⟩
      exact ⟨task, member, has, isCol⟩

/--
When `matrix_multiply_parallel` has waited for its pool, the rows whose tasks
were accepted are those of the product and nothing else has changed; when all
were accepted the memory is the one `matrix_multiply_sequential` leaves.
-/
theorem matrixMultiplyParallel
    (multipliable : Multipliable A B C)
    {memory : Nat → Elem}
    {returned later :
      Execution config Unit Unit RowTask (RowPlace Elem) (Nat → Elem)}
    (reachable :
      (executions config Unit (computeRows Elem) memory).Reachable
        returned)
    {since : List Nat}
    {caller : Caller Unit RowTask (RowPlace Elem)}
    (returns :
      returned.pool.pc (.client ()) = .waiting .done since caller)
    (rest :
      ((executions config Unit (computeRows Elem) memory).restrict
        Execution.NoSubmission).Run returned later)
    (submissions :
      later.pool.shared.history.submissions =
        rowTasks A B C config.numThreads) :
    Multiplied A B C
        (fun i j =>
          (∃ t ∈ later.pool.shared.history.acknowledged,
            t < config.numThreads ∧
              (rowTask A B C config.numThreads t).Has i) ∧
            j < B.cols)
        memory later.memory ∧
      ((∀ t < config.numThreads,
          t ∈ later.pool.shared.history.acknowledged) →
        later.memory = matrixMultiplySequential A B C memory) := by
  have laterReachable := reachable.run (System.Run.of_restrict rest)
  have poolReachable := Execution.pool_reachable laterReachable
  have quiet := Quiet.returned reachable returns rest
  have nodup : later.pool.shared.history.acknowledged.Nodup := by
    have once := reachable_called_nodup poolReachable
    rw [quiet.called poolReachable] at once
    exact once
  -- The tasks for different rows are independent.
  have serially :=
    quiet.serially_all laterReachable (by
        rw [Execution.programs, List.pairwise_map,
          List.pairwise_filterMap]
        refine nodup.imp ?_
        intro id id' different task isTask task' isTask'
        obtain ⟨inRange, argIs⟩ := task_of_rowTasks submissions isTask
        obtain ⟨inRange', argIs'⟩ := task_of_rowTasks submissions isTask'
        refine computeRows_independent multipliable ?_ ?_ ?_
        · rw [argIs]
          exact rowTask_of inRange
        · rw [argIs']
          exact rowTask_of inRange'
        · rw [argIs, argIs']
          intro i has
          exact rowTask_apart inRange inRange' different has)
  have product :=
    (serially_multiplied multipliable
      (fun task member => (acknowledged_of submissions member).1)
      serially).congr
      (fun i j => and_congr_left fun _ => acknowledged_has submissions i)
  refine ⟨product, ?_⟩
  intro all
  refine product.unique
    ((multiplied_rowsFrom multipliable le_rfl memory).congr ?_)
  intro i j
  constructor
  · rintro ⟨⟨_, isRow⟩, isCol⟩
    obtain ⟨t, inRange, has⟩ :=
      exists_rowTask_has config.numThreads_pos isRow
    exact ⟨⟨t, all t inRange, inRange, has⟩, isCol⟩
  · rintro ⟨⟨t, _, inRange, has⟩, isCol⟩
    exact ⟨⟨Nat.zero_le i, has.2.trans_le (rowTask_of inRange).fits⟩,
      isCol⟩

end Parallel

/-- A matrix with two rows and two columns. -/
def twoByTwo (address : Nat) : Matrix where
  data := address
  rows := 2
  cols := 2
  rows_fit := by decide
  cols_fit := by decide
  elements_fit := by decide

/-- Three of them lie apart. -/
theorem multipliable_twoByTwo :
    Multipliable (twoByTwo 0) (twoByTwo 4) (twoByTwo 8) where
  inner := rfl
  rows := rfl
  cols := rfl
  apartA := by
    intro row col row' col' inRow inCol inRow' inCol'
    rw [Matrix.cell_eq inRow inCol, Matrix.cell_eq inRow' inCol']
    simp only [twoByTwo] at *
    omega
  apartB := by
    intro row col row' col' inRow inCol inRow' inCol'
    rw [Matrix.cell_eq inRow inCol, Matrix.cell_eq inRow' inCol']
    simp only [twoByTwo] at *
    omega

/-- Two workers multiply the matrices 1, 2, 3, 4 and 5, 6, 7, 8. -/
theorem matrixMultiplyParallel_twoByTwo :
    ∃ returned later :
        Execution pairConfig Unit Unit RowTask (RowPlace Nat) (Nat → Nat),
      (executions pairConfig Unit (computeRows Nat)
          (fun address => address + 1)).Reachable returned ∧
        returned.pool.pc (.client ()) = .waiting .done [0, 1] .client ∧
        ((executions pairConfig Unit (computeRows Nat)
          (fun address => address + 1)).restrict
            Execution.NoSubmission).Run returned later ∧
        later.pool.shared.history.submissions =
          rowTasks (twoByTwo 0) (twoByTwo 4) (twoByTwo 8) 2 ∧
        later.pool.shared.history.acknowledged = [0, 1] ∧
        [8, 9, 10, 11].map later.memory = [19, 22, 43, 50] := by
  obtain ⟨returned, later, reachable, returns, rest, _, _, submissions,
    acknowledged, _⟩ :=
    exists_joined_pair (computeRows Nat) () ()
      (rowTask (twoByTwo 0) (twoByTwo 4) (twoByTwo 8) 2 0)
      (rowTask (twoByTwo 0) (twoByTwo 4) (twoByTwo 8) 2 1)
      (.step (.step (.step .refl rfl) rfl) rfl)
      ⟨.done, RowPlace.course _ _ (fun address => address + 1), rfl⟩
      (RowPlace.course _ _ _) rfl
  have product :=
    (matrixMultiplyParallel multipliable_twoByTwo reachable returns rest
      submissions).2 (by
        rw [acknowledged]
        intro t inRange
        exact List.mem_range.mpr inRange)
  refine ⟨returned, later, reachable, returns, rest, submissions,
    acknowledged, ?_⟩
  rw [product]
  decide +kernel

end SThread.Examples
