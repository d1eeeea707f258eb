/-
  CommandShell.Log — what the shell writes down about its own work.

  A notice is one thing worth a record. Its level and its wording are decided here and nowhere else.
-/

import CommandShell.Command
import CommandShell.StageError
import CommandShell.Text.Native
import CommandShell.Text.Quoted

namespace CommandShell

inductive Level where
  | error
  | warn
  | info
  | debug
  | trace
  deriving DecidableEq, Repr

namespace Level

def name : Level → String
  | error => "ERROR"
  | warn => "WARN"
  | info => "INFO"
  | debug => "DEBUG"
  | trace => "TRACE"

/-- The more there is to say, the higher the rank. -/
def rank : Level → Nat
  | error => 1
  | warn => 2
  | info => 3
  | debug => 4
  | trace => 5

end Level

/-- The highest level that is recorded; `none` when nothing is. -/
abbrev Threshold := Option Level

namespace Threshold

def rank (t : Threshold) : Nat := (t.map Level.rank).getD 0

def name (t : Threshold) : String := (t.map Level.name).getD "OFF"

def admits (t : Threshold) (level : Level) : Bool := level.rank ≤ t.rank

def min (s t : Threshold) : Threshold := if s.rank ≤ t.rank then s else t

end Threshold

inductive ExitStatus where
  | code (n : Nat)
  | signal (n : Nat)
  deriving DecidableEq, Repr

namespace ExitStatus

def signalNames : List (Nat × String) :=
  [(1, "SIGHUP"), (2, "SIGINT"), (3, "SIGQUIT"), (4, "SIGILL"), (5, "SIGTRAP"), (6, "SIGABRT"), (7, "SIGBUS"),
   (8, "SIGFPE"), (9, "SIGKILL"), (10, "SIGUSR1"), (11, "SIGSEGV"), (12, "SIGUSR2"), (13, "SIGPIPE"),
   (14, "SIGALRM"), (15, "SIGTERM"), (16, "SIGSTKFLT"), (24, "SIGXCPU"), (25, "SIGXFSZ"), (26, "SIGVTALRM"),
   (27, "SIGPROF"), (29, "SIGIO"), (30, "SIGPWR"), (31, "SIGSYS")]

def text : ExitStatus → String
  | code n => s!"exit status: {n}"
  | signal n =>
    match signalNames.find? fun row => row.1 = n with
    | some row => s!"signal: {n} ({row.2})"
    | none => s!"signal: {n}"

/-- A program killed by a signal counts as ended with 128 more than its number. -/
def value : ExitStatus → Int
  | code n => n
  | signal n => 128 + n

end ExitStatus

inductive HistoryUse where
  | reading
  | saving
  deriving DecidableEq, Repr

inductive Notice where
  -- Lines and pipelines.
  | parsed (commands : Nat)
  | writeEndUnused (stage : Nat)
  | startAbandoned (stage : Nat)
  | exitReceived (code : Int)
  | failed (error : StageError)
  -- Stages.
  | starting (argv : List String)
  | redirecting (target : String) (mode : OpenMode)
  | commandNotFound (name : String)
  | programEnded (name : String) (status : ExitStatus)
  | builtinCrashed (name message : String)
  -- Builtins and history.
  | directoryChanged (path : String)
  | directoryKept (path : String) (cause : Fault)
  | historyRead (path : Native) (count : Nat)
  | historyPoisoned
  | historyAbsent (path : Native)
  | historySaving (count : Nat) (path : Native)
  | historyUnusable (use : HistoryUse) (path : Native) (cause : Fault)
  -- The search for programs.
  | pathUnset
  | directoryUnreadable (path : Native) (cause : Fault)
  | metadataUnreadable (path : Native) (cause : Fault)
  -- The life of the shell.
  | logFileUnusable (path : Native) (cause : Fault)
  | thresholdSet (threshold : Threshold)
  | settingsLoaded (path : Native)
  | inputReady
  | shellStarting
  | interrupted
  | inputEnded
  | inputFailed (message : String)
  | shellEnding (code : Int)
  deriving DecidableEq, Repr

namespace Notice

def level : Notice → Level
  | failed (.exited ..) => .debug
  | failed (.exitRequested ..) => .debug
  | failed (.brokeDown ..) => .error
  | failed (.noPipe ..) => .error
  | failed _ => .warn
  | pathUnset => .error
  | inputFailed _ => .error
  | builtinCrashed .. => .warn
  | historyPoisoned => .warn
  | historyUnusable .. => .warn
  | logFileUnusable .. => .warn
  | _ => .debug

def modeName : OpenMode → String
  | .truncate => "Truncate"
  | .append => "Append"

def text : Notice → String
  | parsed n => s!"解析得到 {n} 个命令"
  | writeEndUnused i => s!"阶段 {i} 已重定向 stdout，不接管道写端"
  | startAbandoned i => s!"阶段 {i} 启动失败，放弃启动剩余阶段"
  | exitReceived code => s!"收到 exit 请求: {code}"
  | failed error => error.message
  | starting argv => s!"启动命令: {Text.shownWords argv}"
  | redirecting target mode => s!"打开重定向文件: {target} ({modeName mode})"
  | commandNotFound name => s!"找不到命令: {name}"
  | programEnded name status => s!"外部命令结束: {name} {status.text}"
  | builtinCrashed name message => s!"内建命令 {name} 异常终止: {message}"
  | directoryChanged path => s!"切换目录: {path}"
  | directoryKept path cause => s!"cd 失败: {path}: {cause.message}"
  | historyRead path count => s!"从 {path} 读取 {count} 条历史"
  | historyPoisoned => "history lock poisoned"
  | historyAbsent path => s!"历史文件 {path} 不存在"
  | historySaving count path => s!"保存 {count} 条历史到 {path}"
  | historyUnusable .reading path cause => s!"无法读取历史文件 {path}: {cause.message}"
  | historyUnusable .saving path cause => s!"无法保存历史文件 {path}: {cause.message}"
  | pathUnset => "kosh: env PATH is not set"
  | directoryUnreadable path cause => s!"kosh: read_dir error: {path}: {cause.message}"
  | metadataUnreadable path cause => s!"kosh: metadata error: {path}: {cause.message}"
  | logFileUnusable path cause => s!"无法创建日志文件 {path}: {cause.message}"
  | thresholdSet threshold => s!"日志级别设置为: {threshold.name}"
  | settingsLoaded path => s!"配置加载成功 {path}"
  | inputReady => "readline 初始化完成"
  | shellStarting => "初始化 kosh..."
  | interrupted => "接收到中断信号"
  | inputEnded => "接收到 EOF，退出 kosh"
  | inputFailed message => s!"读取输入失败: {message}"
  | shellEnding code => s!"退出 kosh, 退出码 {code}"

def record (n : Notice) : String := s!"{n.level.name} {n.text}"

end Notice

end CommandShell
