import Mathlib.Data.Int.Notation

/-!
# Error numbers

The `errno` values the sources return by name. Functions return `0` or a negated error number;
locks, unlocks and system calls can report any other positive number as well.
-/

namespace CLogger

def enoent : ℤ := 2
def eintr : ℤ := 4
def eio : ℤ := 5
def ebadf : ℤ := 9
def echild : ℤ := 10
def eagain : ℤ := 11
def enomem : ℤ := 12
def ebusy : ℤ := 16
def eexist : ℤ := 17
def enodev : ℤ := 19
def einval : ℤ := 22
def enospc : ℤ := 28
def emlink : ℤ := 31
def epipe : ℤ := 32
def erange : ℤ := 34
def edeadlk : ℤ := 35
def enametoolong : ℤ := 36
def enosys : ℤ := 38
def eloop : ℤ := 40
def eoverflow : ℤ := 75
def eilseq : ℤ := 84
def edestaddrreq : ℤ := 89
def emsgsize : ℤ := 90
def enotsup : ℤ := 95
def econnreset : ℤ := 104
def enobufs : ℤ := 105
def enotconn : ℤ := 107
def eshutdown : ℤ := 108
def econnrefused : ℤ := 111
def ealready : ℤ := 114
def estale : ℤ := 116
def euclean : ℤ := 117

theorem eintr_pos : 0 < eintr := by decide

theorem eio_pos : 0 < eio := by decide

theorem enomem_pos : 0 < enomem := by decide

theorem einval_pos : 0 < einval := by decide

theorem epipe_pos : 0 < epipe := by decide

end CLogger
