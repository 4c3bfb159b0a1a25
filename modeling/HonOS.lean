import HonOS.Basic
import HonOS.Paging
import HonOS.Elf
import HonOS.Loader
import HonOS.ArgVector
import HonOS.ExecuteFile
import HonOS.Terminal
import HonOS.LineEditor
import HonOS.Noterm
import HonOS.TaskTerminal
import HonOS.Interrupts
import HonOS.PrintBytes
import HonOS.ListEntries
import HonOS.Redraw
import HonOS.Cat
