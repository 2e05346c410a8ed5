import TensorGraph.Text.Letters

/-!
Kinds of operations: their names, the category that decides how a kind is typed, and how many
inputs a kind takes.
-/

namespace TensorGraph

/-- Families of operation kinds. -/
inductive OperationCategory where
  | unary | binary | comparison | logical | reduction | matrix | activation | normalization
  | neural | loss | memory | collective | misc
deriving DecidableEq, Repr

/-- The name of a category of operations. -/
def OperationCategory.name : OperationCategory → String
  | .unary => "unary"
  | .binary => "binary"
  | .comparison => "comparison"
  | .logical => "logical"
  | .reduction => "reduction"
  | .matrix => "matrix"
  | .activation => "activation"
  | .normalization => "normalization"
  | .neural => "neural"
  | .loss => "loss"
  | .memory => "memory"
  | .collective => "collective"
  | .misc => "misc"

/-- What an operation computes. -/
inductive OperationKind where
  | neg | abs | exp | log | log2 | log10 | sqrt | rsqrt | square | sin | cos | tan | sinh | cosh
  | tanh | floor | ceil | round | sign | reciprocal | erf
  | add | sub | mul | div | pow | mod | max | min
  | eq | ne | lt | le | gt | ge
  | and | or | xor | not
  | sum | mean | prod | reduceMax | reduceMin | argmax | argmin | all | any | variance | std
  | matmul | batchMatmul | transpose | dot | outer | einsum
  | relu | leakyRelu | gelu | silu | mish | sigmoid | softmax | logSoftmax | softplus | hardswish
  | batchNorm | layerNorm | groupNorm | instanceNorm | rmsNorm
  | conv2d | conv1d | conv3d | convTranspose2d | maxPool2d | avgPool2d | adaptiveAvgPool2d
  | dropout | linear | embedding | attention | multiHeadAttention
  | mseLoss | crossEntropyLoss | bceLoss | nllLoss | l1Loss | huberLoss | klDivLoss
  | reshape | view | flatten | squeeze | unsqueeze | permute | contiguous | clone | cat | stack
  | split | chunk | slice | gather | scatter | select | pad
  | allReduce | allGather | reduceScatter | broadcast | allToAll
  | cast | fill | zeros | ones | rand | randn | arange | linspace | clamp | maskedFill | tril
  | triu | diag | eye
deriving DecidableEq, Repr, Inhabited

namespace OperationKind

/-- Every kind, family by family. -/
def list : List OperationKind := [
  .neg, .abs, .exp, .log, .log2, .log10, .sqrt, .rsqrt, .square, .sin, .cos, .tan, .sinh, .cosh,
  .tanh, .floor, .ceil, .round, .sign, .reciprocal, .erf,
  .add, .sub, .mul, .div, .pow, .mod, .max, .min,
  .eq, .ne, .lt, .le, .gt, .ge,
  .and, .or, .xor, .not,
  .sum, .mean, .prod, .reduceMax, .reduceMin, .argmax, .argmin, .all, .any, .variance, .std,
  .matmul, .batchMatmul, .transpose, .dot, .outer, .einsum,
  .relu, .leakyRelu, .gelu, .silu, .mish, .sigmoid, .softmax, .logSoftmax, .softplus, .hardswish,
  .batchNorm, .layerNorm, .groupNorm, .instanceNorm, .rmsNorm,
  .conv2d, .conv1d, .conv3d, .convTranspose2d, .maxPool2d, .avgPool2d, .adaptiveAvgPool2d,
  .dropout, .linear, .embedding, .attention, .multiHeadAttention,
  .mseLoss, .crossEntropyLoss, .bceLoss, .nllLoss, .l1Loss, .huberLoss, .klDivLoss,
  .reshape, .view, .flatten, .squeeze, .unsqueeze, .permute, .contiguous, .clone, .cat, .stack,
  .split, .chunk, .slice, .gather, .scatter, .select, .pad,
  .allReduce, .allGather, .reduceScatter, .broadcast, .allToAll,
  .cast, .fill, .zeros, .ones, .rand, .randn, .arange, .linspace, .clamp, .maskedFill, .tril,
  .triu, .diag, .eye
  ]

def name : OperationKind → String
  | .neg => "neg"
  | .abs => "abs"
  | .exp => "exp"
  | .log => "log"
  | .log2 => "log2"
  | .log10 => "log10"
  | .sqrt => "sqrt"
  | .rsqrt => "rsqrt"
  | .square => "square"
  | .sin => "sin"
  | .cos => "cos"
  | .tan => "tan"
  | .sinh => "sinh"
  | .cosh => "cosh"
  | .tanh => "tanh"
  | .floor => "floor"
  | .ceil => "ceil"
  | .round => "round"
  | .sign => "sign"
  | .reciprocal => "reciprocal"
  | .erf => "erf"
  | .add => "add"
  | .sub => "sub"
  | .mul => "mul"
  | .div => "div"
  | .pow => "pow"
  | .mod => "mod"
  | .max => "max"
  | .min => "min"
  | .eq => "eq"
  | .ne => "ne"
  | .lt => "lt"
  | .le => "le"
  | .gt => "gt"
  | .ge => "ge"
  | .and => "and"
  | .or => "or"
  | .xor => "xor"
  | .not => "not"
  | .sum => "sum"
  | .mean => "mean"
  | .prod => "prod"
  | .reduceMax => "reduce_max"
  | .reduceMin => "reduce_min"
  | .argmax => "argmax"
  | .argmin => "argmin"
  | .all => "all"
  | .any => "any"
  | .variance => "variance"
  | .std => "std"
  | .matmul => "matmul"
  | .batchMatmul => "batch_matmul"
  | .transpose => "transpose"
  | .dot => "dot"
  | .outer => "outer"
  | .einsum => "einsum"
  | .relu => "relu"
  | .leakyRelu => "leaky_relu"
  | .gelu => "gelu"
  | .silu => "silu"
  | .mish => "mish"
  | .sigmoid => "sigmoid"
  | .softmax => "softmax"
  | .logSoftmax => "log_softmax"
  | .softplus => "softplus"
  | .hardswish => "hardswish"
  | .batchNorm => "batch_norm"
  | .layerNorm => "layer_norm"
  | .groupNorm => "group_norm"
  | .instanceNorm => "instance_norm"
  | .rmsNorm => "rms_norm"
  | .conv2d => "conv2d"
  | .conv1d => "conv1d"
  | .conv3d => "conv3d"
  | .convTranspose2d => "conv_transpose2d"
  | .maxPool2d => "max_pool2d"
  | .avgPool2d => "avg_pool2d"
  | .adaptiveAvgPool2d => "adaptive_avg_pool2d"
  | .dropout => "dropout"
  | .linear => "linear"
  | .embedding => "embedding"
  | .attention => "attention"
  | .multiHeadAttention => "multi_head_attention"
  | .mseLoss => "mse_loss"
  | .crossEntropyLoss => "cross_entropy_loss"
  | .bceLoss => "bce_loss"
  | .nllLoss => "nll_loss"
  | .l1Loss => "l1_loss"
  | .huberLoss => "huber_loss"
  | .klDivLoss => "kl_div_loss"
  | .reshape => "reshape"
  | .view => "view"
  | .flatten => "flatten"
  | .squeeze => "squeeze"
  | .unsqueeze => "unsqueeze"
  | .permute => "permute"
  | .contiguous => "contiguous"
  | .clone => "clone"
  | .cat => "cat"
  | .stack => "stack"
  | .split => "split"
  | .chunk => "chunk"
  | .slice => "slice"
  | .gather => "gather"
  | .scatter => "scatter"
  | .select => "where"
  | .pad => "pad"
  | .allReduce => "all_reduce"
  | .allGather => "all_gather"
  | .reduceScatter => "reduce_scatter"
  | .broadcast => "broadcast"
  | .allToAll => "all_to_all"
  | .cast => "cast"
  | .fill => "fill"
  | .zeros => "zeros"
  | .ones => "ones"
  | .rand => "rand"
  | .randn => "randn"
  | .arange => "arange"
  | .linspace => "linspace"
  | .clamp => "clamp"
  | .maskedFill => "masked_fill"
  | .tril => "tril"
  | .triu => "triu"
  | .diag => "diag"
  | .eye => "eye"

def category : OperationKind → OperationCategory
  | .neg | .abs | .exp | .log | .log2 | .log10 | .sqrt | .rsqrt | .square | .sin | .cos | .tan
  | .sinh | .cosh | .tanh | .floor | .ceil | .round | .sign | .reciprocal | .erf => .unary
  | .add | .sub | .mul | .div | .pow | .mod | .max | .min => .binary
  | .eq | .ne | .lt | .le | .gt | .ge => .comparison
  | .and | .or | .xor | .not => .logical
  | .sum | .mean | .prod | .reduceMax | .reduceMin | .argmax | .argmin | .all | .any | .variance
  | .std => .reduction
  | .matmul | .batchMatmul | .transpose | .dot | .outer | .einsum => .matrix
  | .relu | .leakyRelu | .gelu | .silu | .mish | .sigmoid | .softmax | .logSoftmax | .softplus
  | .hardswish => .activation
  | .batchNorm | .layerNorm | .groupNorm | .instanceNorm | .rmsNorm => .normalization
  | .conv2d | .conv1d | .conv3d | .convTranspose2d | .maxPool2d | .avgPool2d | .adaptiveAvgPool2d
  | .dropout | .linear | .embedding | .attention | .multiHeadAttention => .neural
  | .mseLoss | .crossEntropyLoss | .bceLoss | .nllLoss | .l1Loss | .huberLoss | .klDivLoss => .loss
  | .reshape | .view | .flatten | .squeeze | .unsqueeze | .permute | .contiguous | .clone | .cat
  | .stack | .split | .chunk | .slice | .gather | .scatter | .select | .pad => .memory
  | .allReduce | .allGather | .reduceScatter | .broadcast | .allToAll => .collective
  | .cast | .fill | .zeros | .ones | .rand | .randn | .arange | .linspace | .clamp | .maskedFill
  | .tril | .triu | .diag | .eye => .misc

/-- How many inputs the kinds of a family take, none where the number varies. -/
def categoryInputs? : OperationCategory → Option Nat
  | .unary | .reduction | .matrix | .activation | .normalization => some 1
  | .binary | .comparison | .logical | .loss => some 2
  | .neural | .memory | .collective | .misc => none

/-- How many inputs a kind takes, none where the number varies. -/
def inputCount? (k : OperationKind) : Option Nat :=
  match k with
  | .not => some 1
  | .matmul | .batchMatmul | .dot | .outer => some 2
  | .einsum => none
  | _ => categoryInputs? k.category

/-- Whether a kind works element by element. -/
def isElementwise (k : OperationKind) : Bool :=
  match k.category with
  | .unary | .binary | .comparison | .logical | .activation => true
  | _ => false

/-- Whether a kind can write its result over its input. -/
def isInplace (k : OperationKind) : Bool := k.isElementwise

/-- Whether a gradient flows through a kind. -/
def requiresGrad (k : OperationKind) : Bool :=
  match k.category with
  | .comparison | .logical => false
  | _ => true

def memberName (k : OperationKind) : String := k.name.toUpper

/-- The kind that a text names, in documents or, whatever the case of its letters, in
capitals. -/
def parse? (s : String) : Option OperationKind :=
  match list.find? (·.name = s) with
  | some k => some k
  | none =>
    let capitals := String.ofList (s.toList.flatMap Text.raised)
    list.find? (·.memberName = capitals)

theorem mem_list (k : OperationKind) : k ∈ list := by cases k <;> decide

theorem parse?_name (k : OperationKind) : parse? k.name = some k := by
  have h : ∀ k ∈ list, parse? k.name = some k := by decide +kernel
  exact h k (mem_list k)

theorem backslash_not_mem_name (k : OperationKind) : '\\' ∉ k.name.toList := by
  cases k <;> simp [name]

/-- No name of a kind is one of the words in capitals that stand for nodes without a kind. -/
theorem name_not_mem (k : OperationKind) : k.name ∉ ["INPUT", "CONST", "OUTPUT", "OP"] := by
  cases k <;> simp [name]

end OperationKind

end TensorGraph
