import Mathlib.Data.Nat.Notation

/-!
# Entries of the system call tables

The tables of `syscall/`, one for each platform, with the entries they list.  A field that an
initialiser leaves out has the value zero; for `id` that is `V_ID`.
-/

namespace Syscall

/-- `enum yes_no`.  `NX_YES` is the value zero. -/
inductive YesNo where
  | yes
  | no
  deriving DecidableEq, Repr

/-- `enum arg_type`. -/
inductive ArgType where
  | fileDesc | voidBuf | size | filePath | openFlag | mode | statFs | statFlag | int | rusage
  | pid | waitOption | socket | whence | offset | mountType | dirPath | mountFlag | unmountFlag
  | recvFlag | request | mountPath | dev | ptraceRequest | message | sendFlag | sockaddr
  | socklen | amode | chflags
  deriving DecidableEq, Repr

/-- The functions of `generate.h` that make an argument. -/
inductive Generator where
  | generateFd | generateSocket | generateBuf | generateLength | generatePath | generateMode
  | generateOpenFlag | generateFsStat | generateFsStatFlag | generatePid | generateInt
  | generateRusage | generateWaitOption | generateWhence | generateOffset | generateMountType
  | generateDirpath | generateMountFlags | generateUnmountFlags | generateRequest
  | generateRecvFlags | generateMountpath | generateDev | generateMessage | generateSendFlags
  | generateSockaddr | generateSocklen | generateAmode | generateChflags
  deriving DecidableEq, Repr

/-- The numbers of system calls that entries refer to. -/
inductive Symbol where
  | sysRead | sysWrite | sysOpen | sysClose | sysWait4 | sysLink | sysUnlink | sysChdir
  | sysFchdir | sysMknod | sysGetfsstat | sysLseek | sysSetuid | sysPtrace | sysRecvmsg
  | sysSendmsg | sysAccept | sysGetpeername | sysGetsockname | sysAccess | sysChflags
  deriving DecidableEq, Repr

/-- `enum test_id`.  The letters say how each argument is passed. -/
inductive TestId where
  | V | P | VP | VPV | PV | PVV | PP | VPVVPV | VPVP | VVPV
  deriving DecidableEq, Repr

/-- `enum syscall_status`. -/
inductive Status where
  | on
  | off
  deriving DecidableEq, Repr

/-- The number of elements of the arrays that have one for each argument. -/
def ARG_LIMIT : ℕ := 7

/-- `struct syscall_entry` as it is initialised.  `args` has the argument types and the
generators of the entry. -/
structure Entry where
  syscallName : String
  syscallSymbol : Symbol
  totalArgs : ℕ
  status : Status := .on
  needAlarm : YesNo
  id : TestId := .V
  args : List (ArgType × Generator)
  deriving DecidableEq, Repr

/-- `arg_type_array[c]`. -/
def Entry.argType (e : Entry) (c : ℕ) : ArgType :=
  (e.args[c]?.map Prod.fst).getD .fileDesc

/-! ### FreeBSD -/

namespace FreeBSD

def entryRead : Entry where
  syscallName := "read"
  syscallSymbol := .sysRead
  totalArgs := 3
  needAlarm := .yes
  args := [(.fileDesc, .generateFd), (.voidBuf, .generateBuf), (.size, .generateLength)]

def entryWrite : Entry where
  syscallName := "write"
  syscallSymbol := .sysWrite
  totalArgs := 3
  needAlarm := .no
  args := [(.fileDesc, .generateFd), (.voidBuf, .generateBuf), (.size, .generateLength)]

def entryOpen : Entry where
  syscallName := "open"
  syscallSymbol := .sysOpen
  totalArgs := 3
  needAlarm := .no
  args := [(.filePath, .generatePath), (.openFlag, .generateOpenFlag), (.mode, .generateMode)]

def entryClose : Entry where
  syscallName := "close"
  syscallSymbol := .sysClose
  totalArgs := 1
  needAlarm := .no
  args := [(.fileDesc, .generateFd)]

def entryWait4 : Entry where
  syscallName := "wait4"
  syscallSymbol := .sysWait4
  totalArgs := 4
  needAlarm := .no
  args := [(.pid, .generatePid), (.int, .generateInt), (.waitOption, .generateWaitOption),
    (.rusage, .generateRusage)]

def entryLink : Entry where
  syscallName := "link"
  syscallSymbol := .sysLink
  totalArgs := 2
  needAlarm := .no
  args := [(.filePath, .generatePath), (.filePath, .generatePath)]

def entryUnlink : Entry where
  syscallName := "unlink"
  syscallSymbol := .sysUnlink
  totalArgs := 1
  needAlarm := .no
  args := [(.filePath, .generatePath)]

def entryChdir : Entry where
  syscallName := "chdir"
  syscallSymbol := .sysChdir
  totalArgs := 1
  needAlarm := .no
  args := [(.filePath, .generatePath)]

def entryFchdir : Entry where
  syscallName := "fchdir"
  syscallSymbol := .sysFchdir
  totalArgs := 1
  needAlarm := .no
  args := [(.fileDesc, .generateFd)]

def entryMknod : Entry where
  syscallName := "mknod"
  syscallSymbol := .sysMknod
  totalArgs := 3
  needAlarm := .no
  args := [(.filePath, .generatePath), (.mode, .generateMode), (.dev, .generateDev)]

def entryGetfsstat : Entry where
  syscallName := "getfsstat"
  syscallSymbol := .sysGetfsstat
  totalArgs := 3
  needAlarm := .no
  args := [(.statFs, .generateFsStat), (.size, .generateLength), (.statFlag, .generateFsStatFlag)]

def entryLseek : Entry where
  syscallName := "lseek"
  syscallSymbol := .sysLseek
  totalArgs := 3
  needAlarm := .no
  args := [(.fileDesc, .generateFd), (.offset, .generateOffset), (.whence, .generateWhence)]

def entrySetuid : Entry where
  syscallName := "setuid"
  syscallSymbol := .sysSetuid
  totalArgs := 1
  needAlarm := .no
  args := [(.int, .generateInt)]

def entryPtrace : Entry where
  syscallName := "ptrace"
  syscallSymbol := .sysPtrace
  totalArgs := 4
  needAlarm := .no
  args := [(.request, .generateRequest), (.pid, .generatePid), (.voidBuf, .generateBuf),
    (.int, .generateInt)]

def entryRecvmsg : Entry where
  syscallName := "recvmsg"
  syscallSymbol := .sysRecvmsg
  totalArgs := 4
  needAlarm := .yes
  args := [(.socket, .generateSocket), (.voidBuf, .generateBuf), (.size, .generateLength),
    (.recvFlag, .generateRecvFlags)]

def freebsdSyscallTable : List Entry :=
  [entryRead, entryWrite, entryOpen, entryClose, entryWait4, entryLink, entryUnlink, entryChdir,
    entryFchdir, entryMknod, entryGetfsstat, entryLseek, entrySetuid, entryPtrace, entryRecvmsg]

end FreeBSD

/-! ### Linux -/

namespace Linux

def entryRead : Entry where
  syscallName := "read"
  syscallSymbol := .sysRead
  totalArgs := 3
  needAlarm := .yes
  args := [(.fileDesc, .generateFd), (.voidBuf, .generateBuf), (.size, .generateLength)]

def linuxSyscallTable : List Entry :=
  [entryRead]

end Linux

/-! ### Mac OS X -/

namespace Mac

def entryRead : Entry where
  syscallName := "read"
  syscallSymbol := .sysRead
  totalArgs := 3
  needAlarm := .yes
  id := .VPV
  args := [(.fileDesc, .generateFd), (.voidBuf, .generateBuf), (.size, .generateLength)]

def entryWrite : Entry where
  syscallName := "write"
  syscallSymbol := .sysWrite
  totalArgs := 3
  needAlarm := .no
  id := .VPV
  args := [(.fileDesc, .generateFd), (.voidBuf, .generateBuf), (.size, .generateLength)]

def entryOpen : Entry where
  syscallName := "open"
  syscallSymbol := .sysOpen
  totalArgs := 3
  needAlarm := .no
  id := .PVV
  args := [(.filePath, .generatePath), (.openFlag, .generateOpenFlag), (.mode, .generateMode)]

def entryClose : Entry where
  syscallName := "close"
  syscallSymbol := .sysClose
  totalArgs := 1
  needAlarm := .no
  id := .V
  args := [(.fileDesc, .generateFd)]

def entryWait4 : Entry where
  syscallName := "wait4"
  syscallSymbol := .sysWait4
  totalArgs := 4
  needAlarm := .no
  id := .VPVP
  args := [(.pid, .generatePid), (.int, .generateInt), (.waitOption, .generateWaitOption),
    (.rusage, .generateRusage)]

def entryLink : Entry where
  syscallName := "link"
  syscallSymbol := .sysLink
  totalArgs := 2
  needAlarm := .no
  id := .PP
  args := [(.filePath, .generatePath), (.filePath, .generatePath)]

def entryUnlink : Entry where
  syscallName := "unlink"
  syscallSymbol := .sysUnlink
  totalArgs := 1
  needAlarm := .no
  id := .P
  args := [(.filePath, .generatePath)]

def entryChdir : Entry where
  syscallName := "chdir"
  syscallSymbol := .sysChdir
  totalArgs := 1
  needAlarm := .no
  id := .P
  args := [(.filePath, .generatePath)]

def entryFchdir : Entry where
  syscallName := "fchdir"
  syscallSymbol := .sysFchdir
  totalArgs := 1
  needAlarm := .no
  id := .V
  args := [(.fileDesc, .generateFd)]

def entryMknod : Entry where
  syscallName := "mknod"
  syscallSymbol := .sysMknod
  totalArgs := 3
  needAlarm := .no
  id := .PVV
  args := [(.filePath, .generatePath), (.mode, .generateMode), (.dev, .generateDev)]

def entryGetfsstat : Entry where
  syscallName := "getfsstat"
  syscallSymbol := .sysGetfsstat
  totalArgs := 3
  needAlarm := .no
  id := .PVV
  args := [(.statFs, .generateFsStat), (.size, .generateLength), (.statFlag, .generateFsStatFlag)]

def entrySetuid : Entry where
  syscallName := "setuid"
  syscallSymbol := .sysSetuid
  totalArgs := 1
  needAlarm := .no
  id := .V
  args := [(.int, .generateInt)]

def entryPtrace : Entry where
  syscallName := "ptrace"
  syscallSymbol := .sysPtrace
  totalArgs := 4
  needAlarm := .no
  id := .VVPV
  args := [(.request, .generateRequest), (.pid, .generatePid), (.voidBuf, .generateBuf),
    (.int, .generateInt)]

def entryRecvmsg : Entry where
  syscallName := "recvmsg"
  syscallSymbol := .sysRecvmsg
  totalArgs := 3
  needAlarm := .no
  id := .VPV
  args := [(.socket, .generateSocket), (.message, .generateMessage),
    (.recvFlag, .generateRecvFlags)]

def entrySendmsg : Entry where
  syscallName := "sendmsg"
  syscallSymbol := .sysSendmsg
  totalArgs := 3
  needAlarm := .no
  id := .VPV
  args := [(.socket, .generateSocket), (.message, .generateMessage),
    (.sendFlag, .generateSendFlags)]

def entryRecvfrom : Entry where
  syscallName := "recvfrom"
  syscallSymbol := .sysSendmsg
  totalArgs := 6
  needAlarm := .yes
  id := .VPVVPV
  args := [(.socket, .generateSocket), (.voidBuf, .generateMessage), (.size, .generateLength),
    (.recvFlag, .generateRecvFlags), (.sockaddr, .generateSockaddr), (.socklen, .generateSocklen)]

def entryAccept : Entry where
  syscallName := "accept"
  syscallSymbol := .sysAccept
  totalArgs := 3
  needAlarm := .no
  id := .VPV
  args := [(.socket, .generateSocket), (.sockaddr, .generateSockaddr),
    (.socklen, .generateSocklen)]

def entryGetpeername : Entry where
  syscallName := "getpeername"
  syscallSymbol := .sysGetpeername
  totalArgs := 3
  needAlarm := .no
  id := .VPV
  args := [(.socket, .generateSocket), (.sockaddr, .generateSockaddr),
    (.socklen, .generateSocklen)]

def entryGetsockname : Entry where
  syscallName := "getsockname"
  syscallSymbol := .sysGetsockname
  totalArgs := 3
  needAlarm := .no
  id := .VPV
  args := [(.socket, .generateSocket), (.sockaddr, .generateSockaddr),
    (.socklen, .generateSocklen)]

def entryAccess : Entry where
  syscallName := "access"
  syscallSymbol := .sysAccess
  totalArgs := 2
  needAlarm := .no
  id := .PV
  args := [(.filePath, .generatePath), (.amode, .generateAmode)]

def entryChflags : Entry where
  syscallName := "chflags"
  syscallSymbol := .sysChflags
  totalArgs := 2
  needAlarm := .no
  id := .PV
  args := [(.filePath, .generatePath), (.chflags, .generateChflags)]

def macOsxSyscallTable : List Entry :=
  [entryRead, entryWrite, entryOpen, entryClose, entryWait4, entryLink, entryUnlink, entryChdir,
    entryFchdir, entryMknod, entryGetfsstat, entrySetuid, entryPtrace, entryRecvmsg,
    entrySendmsg, entryRecvfrom, entryAccept, entryGetpeername, entryGetsockname, entryAccess,
    entryChflags]

end Mac

end Syscall
