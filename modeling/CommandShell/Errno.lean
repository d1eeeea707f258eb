/-
  CommandShell.Errno — the numbers of system errors.

  A system error is a number. It has two readings: the text that goes into most messages, and the symbol with a
  terser text that is shown when no pipe can be made. The two texts are mostly the same.
-/

namespace CommandShell

structure Errno where
  code : Int
  deriving DecidableEq, Repr

namespace Errno

def noEntry : Errno := ⟨2⟩
def tooManyArguments : Errno := ⟨7⟩
def notExecutable : Errno := ⟨8⟩
def badDescriptor : Errno := ⟨9⟩
def notPermitted : Errno := ⟨13⟩
def exists_ : Errno := ⟨17⟩
def notDirectory : Errno := ⟨20⟩
def isDirectory : Errno := ⟨21⟩
def tooManyOpen : Errno := ⟨24⟩
def inUse : Errno := ⟨26⟩
def noSpace : Errno := ⟨28⟩
def brokenPipe : Errno := ⟨32⟩
def nameTooLong : Errno := ⟨36⟩
def tooManyLinks : Errno := ⟨40⟩

/-! ## Texts -/

structure Entry where
  code : Int
  symbol : String
  text : String
  terse : String
  deriving DecidableEq, Repr

/-- An error whose two texts are the same. -/
def entry (code : Int) (symbol text : String) : Entry := ⟨code, symbol, text, text⟩

def table : List Entry :=
  [entry 1 "EPERM" "Operation not permitted",
   entry 2 "ENOENT" "No such file or directory",
   entry 3 "ESRCH" "No such process",
   entry 4 "EINTR" "Interrupted system call",
   ⟨5, "EIO", "Input/output error", "I/O error"⟩,
   entry 6 "ENXIO" "No such device or address",
   entry 7 "E2BIG" "Argument list too long",
   entry 8 "ENOEXEC" "Exec format error",
   ⟨9, "EBADF", "Bad file descriptor", "Bad file number"⟩,
   entry 10 "ECHILD" "No child processes",
   ⟨11, "EAGAIN", "Resource temporarily unavailable", "Try again"⟩,
   ⟨12, "ENOMEM", "Cannot allocate memory", "Out of memory"⟩,
   entry 13 "EACCES" "Permission denied",
   entry 14 "EFAULT" "Bad address",
   entry 15 "ENOTBLK" "Block device required",
   entry 16 "EBUSY" "Device or resource busy",
   entry 17 "EEXIST" "File exists",
   ⟨18, "EXDEV", "Invalid cross-device link", "Cross-device link"⟩,
   entry 19 "ENODEV" "No such device",
   entry 20 "ENOTDIR" "Not a directory",
   entry 21 "EISDIR" "Is a directory",
   entry 22 "EINVAL" "Invalid argument",
   ⟨23, "ENFILE", "Too many open files in system", "File table overflow"⟩,
   entry 24 "EMFILE" "Too many open files",
   ⟨25, "ENOTTY", "Inappropriate ioctl for device", "Not a typewriter"⟩,
   entry 26 "ETXTBSY" "Text file busy",
   entry 27 "EFBIG" "File too large",
   entry 28 "ENOSPC" "No space left on device",
   entry 29 "ESPIPE" "Illegal seek",
   entry 30 "EROFS" "Read-only file system",
   entry 31 "EMLINK" "Too many links",
   entry 32 "EPIPE" "Broken pipe",
   ⟨33, "EDOM", "Numerical argument out of domain", "Math argument out of domain of func"⟩,
   ⟨34, "ERANGE", "Numerical result out of range", "Math result not representable"⟩,
   ⟨35, "EDEADLK", "Resource deadlock avoided", "Resource deadlock would occur"⟩,
   entry 36 "ENAMETOOLONG" "File name too long",
   ⟨37, "ENOLCK", "No locks available", "No record locks available"⟩,
   entry 38 "ENOSYS" "Function not implemented",
   entry 39 "ENOTEMPTY" "Directory not empty",
   ⟨40, "ELOOP", "Too many levels of symbolic links", "Too many symbolic links encountered"⟩,
   entry 42 "ENOMSG" "No message of desired type",
   entry 43 "EIDRM" "Identifier removed",
   entry 44 "ECHRNG" "Channel number out of range",
   entry 45 "EL2NSYNC" "Level 2 not synchronized",
   entry 46 "EL3HLT" "Level 3 halted",
   entry 47 "EL3RST" "Level 3 reset",
   entry 48 "ELNRNG" "Link number out of range",
   entry 49 "EUNATCH" "Protocol driver not attached",
   entry 50 "ENOCSI" "No CSI structure available",
   entry 51 "EL2HLT" "Level 2 halted",
   entry 52 "EBADE" "Invalid exchange",
   entry 53 "EBADR" "Invalid request descriptor",
   entry 54 "EXFULL" "Exchange full",
   entry 55 "ENOANO" "No anode",
   entry 56 "EBADRQC" "Invalid request code",
   entry 57 "EBADSLT" "Invalid slot",
   entry 59 "EBFONT" "Bad font file format",
   entry 60 "ENOSTR" "Device not a stream",
   entry 61 "ENODATA" "No data available",
   entry 62 "ETIME" "Timer expired",
   entry 63 "ENOSR" "Out of streams resources",
   entry 64 "ENONET" "Machine is not on the network",
   entry 65 "ENOPKG" "Package not installed",
   entry 66 "EREMOTE" "Object is remote",
   entry 67 "ENOLINK" "Link has been severed",
   entry 68 "EADV" "Advertise error",
   entry 69 "ESRMNT" "Srmount error",
   entry 70 "ECOMM" "Communication error on send",
   entry 71 "EPROTO" "Protocol error",
   entry 72 "EMULTIHOP" "Multihop attempted",
   entry 73 "EDOTDOT" "RFS specific error",
   ⟨74, "EBADMSG", "Bad message", "Not a data message"⟩,
   entry 75 "EOVERFLOW" "Value too large for defined data type",
   entry 76 "ENOTUNIQ" "Name not unique on network",
   entry 77 "EBADFD" "File descriptor in bad state",
   entry 78 "EREMCHG" "Remote address changed",
   entry 79 "ELIBACC" "Can not access a needed shared library",
   entry 80 "ELIBBAD" "Accessing a corrupted shared library",
   entry 81 "ELIBSCN" ".lib section in a.out corrupted",
   entry 82 "ELIBMAX" "Attempting to link in too many shared libraries",
   entry 83 "ELIBEXEC" "Cannot exec a shared library directly",
   ⟨84, "EILSEQ", "Invalid or incomplete multibyte or wide character", "Illegal byte sequence"⟩,
   entry 85 "ERESTART" "Interrupted system call should be restarted",
   entry 86 "ESTRPIPE" "Streams pipe error",
   entry 87 "EUSERS" "Too many users",
   entry 88 "ENOTSOCK" "Socket operation on non-socket",
   entry 89 "EDESTADDRREQ" "Destination address required",
   entry 90 "EMSGSIZE" "Message too long",
   entry 91 "EPROTOTYPE" "Protocol wrong type for socket",
   entry 92 "ENOPROTOOPT" "Protocol not available",
   entry 93 "EPROTONOSUPPORT" "Protocol not supported",
   entry 94 "ESOCKTNOSUPPORT" "Socket type not supported",
   ⟨95, "EOPNOTSUPP", "Operation not supported", "Operation not supported on transport endpoint"⟩,
   entry 96 "EPFNOSUPPORT" "Protocol family not supported",
   entry 97 "EAFNOSUPPORT" "Address family not supported by protocol",
   entry 98 "EADDRINUSE" "Address already in use",
   entry 99 "EADDRNOTAVAIL" "Cannot assign requested address",
   entry 100 "ENETDOWN" "Network is down",
   entry 101 "ENETUNREACH" "Network is unreachable",
   ⟨102, "ENETRESET", "Network dropped connection on reset", "Network dropped connection because of reset"⟩,
   entry 103 "ECONNABORTED" "Software caused connection abort",
   entry 104 "ECONNRESET" "Connection reset by peer",
   entry 105 "ENOBUFS" "No buffer space available",
   entry 106 "EISCONN" "Transport endpoint is already connected",
   entry 107 "ENOTCONN" "Transport endpoint is not connected",
   entry 108 "ESHUTDOWN" "Cannot send after transport endpoint shutdown",
   entry 109 "ETOOMANYREFS" "Too many references: cannot splice",
   entry 110 "ETIMEDOUT" "Connection timed out",
   entry 111 "ECONNREFUSED" "Connection refused",
   entry 112 "EHOSTDOWN" "Host is down",
   entry 113 "EHOSTUNREACH" "No route to host",
   entry 114 "EALREADY" "Operation already in progress",
   entry 115 "EINPROGRESS" "Operation now in progress",
   entry 116 "ESTALE" "Stale file handle",
   entry 117 "EUCLEAN" "Structure needs cleaning",
   entry 118 "ENOTNAM" "Not a XENIX named type file",
   entry 119 "ENAVAIL" "No XENIX semaphores available",
   entry 120 "EISNAM" "Is a named type file",
   entry 121 "EREMOTEIO" "Remote I/O error",
   ⟨122, "EDQUOT", "Disk quota exceeded", "Quota exceeded"⟩,
   entry 123 "ENOMEDIUM" "No medium found",
   entry 124 "EMEDIUMTYPE" "Wrong medium type",
   entry 125 "ECANCELED" "Operation canceled",
   entry 126 "ENOKEY" "Required key not available",
   entry 127 "EKEYEXPIRED" "Key has expired",
   entry 128 "EKEYREVOKED" "Key has been revoked",
   entry 129 "EKEYREJECTED" "Key was rejected by service",
   entry 130 "EOWNERDEAD" "Owner died",
   entry 131 "ENOTRECOVERABLE" "State not recoverable",
   entry 132 "ERFKILL" "Operation not possible due to RF-kill",
   entry 133 "EHWPOISON" "Memory page has hardware error"]

def entry? (e : Errno) : Option Entry := table.find? fun row => row.code = e.code

/-- The text of an error. Zero is the number of no error at all. -/
def text (e : Errno) : String :=
  if e.code = 0 then "Success"
  else match e.entry? with
    | some row => row.text
    | none => s!"Unknown error {e.code}"

/-- The symbol of an error and its terse text. -/
def symbolText (e : Errno) : String :=
  match e.entry? with
  | some row => s!"{row.symbol}: {row.terse}"
  | none => "UnknownErrno: Unknown errno"

end Errno

end CommandShell
